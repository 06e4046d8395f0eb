import Netflector.Dispatch.RoundTrip
import Netflector.Dispatch.Soundness
import Netflector.Net.Http.Stream
import Netflector.Reflector.Dial.Registrations
import Netflector.Reflector.Mdns
import Netflector.Dispatch.Transparency
import Netflector.Capture.Agreement
import Netflector.Reactor.Dispatching
import Netflector.Net.Http.BodyLength
import Netflector.Dispatch.Inert
import Netflector.Dispatch.Dedupe
import Netflector.Dispatch.Reporting
import Netflector.Dispatch.Standing
import Netflector.Reflector.Dial.Backlog
import Netflector.Dispatch.Delivering
import Netflector.Net.Mdns.Indifference
import Netflector.Net.Mdns.Progress
import Netflector.Net.Mdns.Echo
import Netflector.Net.Mdns.Charges
import Netflector.Net.Wsd
import Netflector.Net.Ssdp.Message
import Netflector.Config.Validation
import Netflector.Reflector.Competition
import Netflector.Config.Fallback
import Netflector.Config.Order
import Netflector.Net.Wsd.Document
import Netflector.Dispatch.PeerSends
import Netflector.Dispatch.Reading
import Netflector.Reflector.Gating
import Netflector.Dispatch.Rearming
import Netflector.Net.Ssdp.Location
import Netflector.Reflector.Dial.Fitting
import Netflector.Dispatch.Bookkeeping
import Netflector.Net.StreamFifo
import Netflector.Reactor.Refinement
import Netflector.Net.InternetSum
import Netflector.Net.FrameVariants
import Netflector.Net.Mdns.Bounded
import Netflector.Interface.Walking
import Netflector.Capture.Draining
import Netflector.Interface.Selection
import Netflector.Reflector.Dial.Release
import Netflector.Reflector.Dial.Conduct
import Netflector.Reflector.Dial.Behind
import Netflector.Reflector.Dial.Learning
import Netflector.Reflector.Dial.Living
import Netflector.Reflector.Dial.Attending
import Netflector.Reflector.Dial.Driving
import Netflector.Reflector.Dial.Observing
import Netflector.Dispatch.Enrolled
import Netflector.Dispatch.Enrollment
import Netflector.Dispatch.Deadlines
import Netflector.Reactor.Signalling
import Netflector.Reactor.Polling
import Netflector.Reactor.Delivering
import Netflector.Privileges.Switch

import Netflector.Dispatch.Planning
import Netflector.Dispatch.Reading
import Netflector.Net.Groups
import Netflector.Net.Ssdp.Location
import Netflector.Reflector.Dial.Rewrite

/-!
# A rewritten `LOCATION` fits

The address of a proxy is longer than the authority it replaces by less than
the headers a payload came under, so the scratch takes the rewritten message;
and what is sent of any payload is cut to frames that the egress scratch takes.
-/

namespace Netflector.Reflector.Dial

open Netflector.Foundation
open Netflector.Net
open Netflector.Net.Http
open Netflector.Net.Ssdp
open Netflector.Reactor
open Netflector.Dispatch

/-! ## The address of a proxy -/

def proxyFor (calls : MintCalls) (context : DialContext)
    (reactor : Reactor Service) (placement : ProxyPlacement)
    (key : DialProxyKey) (descGrace : Nat) :
    Except Panic (DialContext × Reactor Service × Option SocketAddrV4) :=
  match context.lookup key reactor descGrace with
  | (context, some addr) => .ok (context, reactor, some addr)
  | (context, none) =>
      mintProxy calls context reactor placement key descGrace

/-- What the rewrite does before it writes: the authority of the message's
`LOCATION` and the address of the proxy for it, where there is one. -/
def proxyAddress (calls : MintCalls) (now : Nat) (context : DialContext)
    (reactor : Reactor Service) (payload : Bytes)
    (placement : ProxyPlacement) :
    Except Panic (DialContext × Reactor Service ×
      Option (Authority × SocketAddrV4)) :=
  if isDialServiceMessage payload = false then .ok (context, reactor, none)
  else
    match parseDialLocationAuthority payload with
    | none => .ok (context, reactor, none)
    | some location =>
        if isNeverAPeer (.v4 location.endpoint.ip) then
          .ok (context, reactor, none)
        else
          proxyFor calls context reactor placement
              ⟨placement.sourceCapture, placement.targetCapture,
                location.endpoint⟩ (descGraceAt now payload) >>= fun found =>
            .ok (found.1, found.2.1,
              found.2.2.map fun addr => (location, addr))

def spliced (payload : Bytes) (location : Authority) (addr : SocketAddrV4) :
    Bytes :=
  payload.take location.offset ++ authorityText addr ++
    payload.drop (location.offset + location.len)

theorem rewriteLocation_eq (calls : MintCalls) (now : Nat)
    (context : DialContext) (reactor : Reactor Service) (payload : Bytes)
    (placement : ProxyPlacement) :
    rewriteLocation calls now context reactor payload placement =
      proxyAddress calls now context reactor payload placement >>=
        fun found => .ok (found.1, found.2.1, found.2.2.bind fun proxy =>
          if (spliced payload proxy.1 proxy.2).length ≤ maxFrameLen then
            some (spliced payload proxy.1 proxy.2)
          else none) := by
  simp only [rewriteLocation, proxyAddress]
  cases hdial : isDialServiceMessage payload with
  | false => simp only [if_true]; rfl
  | true =>
      cases hlocation : parseDialLocationAuthority payload with
      | none => simp only [Bool.true_eq_false, if_false]; rfl
      | some location =>
          by_cases hpeer : isNeverAPeer (.v4 location.endpoint.ip) = true
          · simp only [Bool.true_eq_false, if_false, hpeer, if_true]
            rfl
          · simp only [Bool.true_eq_false, if_false, hpeer, proxyFor]
            cases hlookup : context.lookup ⟨placement.sourceCapture,
                placement.targetCapture, location.endpoint⟩ reactor
                (descGraceAt now payload) with
            | mk left kept =>
                cases kept with
                | some addr => rfl
                | none =>
                    cases hmint : mintProxy calls left reactor placement
                        ⟨placement.sourceCapture, placement.targetCapture,
                          location.endpoint⟩ (descGraceAt now payload) with
                    | error panic => simp only [hmint]; rfl
                    | ok found =>
                        obtain ⟨_, _, addr⟩ := found
                        simp only [hmint, bind, Except.bind]
                        cases addr with
                        | none => rfl
                        | some addr => rfl

theorem proxyAddress_read {calls : MintCalls} {now : Nat}
    {context context' : DialContext} {reactor reactor' : Reactor Service}
    {payload : Bytes} {placement : ProxyPlacement} {location : Authority}
    {addr : SocketAddrV4}
    (h : proxyAddress calls now context reactor payload placement =
      .ok (context', reactor', some (location, addr))) :
    isDialServiceMessage payload = true ∧
      parseDialLocationAuthority payload = some location := by
  unfold proxyAddress at h
  split at h
  · cases h
  rename_i hdial
  rw [Bool.not_eq_false] at hdial
  refine ⟨hdial, ?_⟩
  split at h
  · cases h
  rename_i found hfound
  split at h
  · cases h
  · obtain ⟨result, _, h⟩ := except_bind_ok h
    cases hresult : result.2.2 with
    | none =>
        rw [hresult] at h
        cases h
    | some got =>
        rw [hresult] at h
        cases h
        exact hfound

/-! ## What it makes of a message -/

structure Readdressed (payload : Bytes) (location : Authority)
    (addr : SocketAddrV4) (output : Bytes) : Prop where
  spliced : output = spliced payload location addr
  first : parseDialLocationAuthority payload = some location
  endpoint : parseDialLocationAuthority output =
    some ⟨addr, location.offset, (authorityText addr).length⟩
  others : ∀ name, 0x3a ∉ name →
    eqIgnoreAsciiCase name (ascii "LOCATION") = false →
      (headerValue output name).map Prod.snd =
        (headerValue payload name).map Prod.snd
  dial : isDialServiceMessage output = true

theorem spliced_readdressed {payload : Bytes} {location : Authority}
    {addr : SocketAddrV4} (hdial : isDialServiceMessage payload = true)
    (hfirst : parseDialLocationAuthority payload = some location)
    (hport : addr.port ≠ 0) :
    Readdressed payload location addr (spliced payload location addr) := by
  obtain ⟨parts, authority, hat⟩ := locationAt_of_parse hfirst
  have hnew := hat.replaced (parseEndpoint_authorityText hport)
    fun octet hmem => isDigit_not_ends (authorityText_plain addr hmem)
  rw [← hat.splice] at hnew
  exact ⟨rfl, hfirst, hnew.parse,
    fun name hplain hother => hat.headerValue_other hnew hplain hother,
    hat.isDial hnew hdial⟩

theorem spliced_fits {payload : Bytes} {location : Authority}
    (hfirst : parseDialLocationAuthority payload = some location)
    (h : CameOut payload) (addr : SocketAddrV4) :
    (spliced payload location addr).length ≤ maxFrameLen := by
  obtain ⟨parts, authority, hat⟩ := locationAt_of_parse hfirst
  have hroom := h.length_le
  have hold := parseEndpoint_length hat.endpoint
  have hnew := authorityText_length addr
  have hheaders : ipv4HeaderSize + udpHeaderSize = 28 := by decide
  rw [spliced, hat.splice]
  rw [hat.payload_eq] at hroom
  simp only [List.length_append] at hroom ⊢
  omega

/-! ## What is sent -/

/-- The frames of `payload` at `mtu`, as either constructor accepts it. -/
inductive Accepted (link : LinkHeader) (payload : Bytes) (mtu : Nat)
    (frames : UdpFrames) : Prop
  | ipv4 (src dst : SocketAddrV4) (ttl : UInt8) (id : UInt16)
      (h : UdpFrames.ipv4 link src dst ttl id payload mtu = .ok frames)
  | ipv6 (src dst : SocketAddrV6) (hopLimit : UInt8) (id : UInt32)
      (h : UdpFrames.ipv6 link src dst hopLimit id payload mtu = .ok frames)

theorem Accepted.write {link : LinkHeader} {payload : Bytes}
    {mtu : Option Nat} {frames : UdpFrames}
    (h : Accepted link payload (frameMtu mtu) frames) {index : Nat}
    (hindex : index < frames.count) :
    ∃ frame, frames.write index maxFrameLen = .ok frame := by
  cases h with
  | ipv4 src dst ttl id h =>
      exact write_fits (UdpFrames.ipv4_laid h) (frameMtu_le mtu) hindex
  | ipv6 src dst hopLimit id h =>
      exact write_fits (UdpFrames.ipv6_laid h) (frameMtu_le mtu) hindex

/-- Wherever a message gets the address of a proxy, its `LOCATION` is rewritten
exactly, and the scratch, cleared, takes it in whatever pieces the address is
written; and no payload that is cut for an egress overruns its scratch. -/
theorem rewrite_exact_and_fits :
    (∀ (calls : MintCalls) (now : Nat) (context context' : DialContext)
      (reactor reactor' : Reactor Service) (payload : Bytes)
      (placement : ProxyPlacement) (location : Authority)
      (addr : SocketAddrV4),
      CameOut payload →
      proxyAddress calls now context reactor payload placement =
        .ok (context', reactor', some (location, addr)) →
      addr.port ≠ 0 →
      ∃ output,
        rewriteLocation calls now context reactor payload placement =
          .ok (context', reactor', some output) ∧
        Readdressed payload location addr output ∧
        ∀ (scratch : StreamBuffer) (live : Bytes) (pieces : List Bytes),
          scratch.Holds live → scratch.capacity = maxFrameLen →
          pieces.flatten = authorityText addr →
          ∃ written, scratch.clear.writeParts
              (payload.take location.offset ::
                (pieces ++
                  [payload.drop (location.offset + location.len)])) =
                .ok (some written) ∧
            written.pending = .ok output) ∧
    ∀ (link : LinkHeader) (payload : Bytes) (mtu : Option Nat)
      (frames : UdpFrames), Accepted link payload (frameMtu mtu) frames →
      ∀ index < frames.count,
        ∃ frame, frames.write index maxFrameLen = .ok frame := by
  refine ⟨?_, fun link payload mtu frames h index hindex => h.write hindex⟩
  intro calls now context context' reactor reactor' payload placement location
    addr hout hproxy hport
  obtain ⟨hdial, hfirst⟩ := proxyAddress_read hproxy
  have hfits := spliced_fits hfirst hout addr
  refine ⟨spliced payload location addr, ?_,
    spliced_readdressed hdial hfirst hport, ?_⟩
  · rw [rewriteLocation_eq, hproxy]
    simp only [bind, Except.bind, Option.bind_some, if_pos hfits]
  · intro scratch live pieces hholds hcapacity hpieces
    have hflatten : (payload.take location.offset :: (pieces ++
        [payload.drop (location.offset + location.len)])).flatten =
          spliced payload location addr := by
      rw [List.flatten_cons, List.flatten_append, hpieces, List.flatten_cons,
        List.flatten_nil, List.append_nil, ← List.append_assoc]
      rfl
    rcases hholds.clear.writeParts (payload.take location.offset ::
      (pieces ++ [payload.drop (location.offset + location.len)])) with
      ⟨hlong, _⟩ | ⟨_, written, hwritten, hfound⟩
    · rw [hflatten] at hlong
      have hclear : scratch.clear.capacity = scratch.capacity := rfl
      rw [hclear, hcapacity, List.length_nil, Nat.zero_add] at hlong
      exact absurd hfits (Nat.not_le.mpr hlong)
    · rw [hflatten, List.nil_append] at hfound
      exact ⟨written, hwritten, hfound.pending⟩

/-- A device announces itself, and is proxied at a longer address. -/
def tvMessage : Bytes :=
  ascii ("NOTIFY * HTTP/1.1\r\nNT: urn:dial-multiscreen-org:service:dial:1" ++
    "\r\nLOCATION: http://10.0.1.9:8/dd.xml\r\n\r\n")

def proxiedMessage : Bytes :=
  ascii ("NOTIFY * HTTP/1.1\r\nNT: urn:dial-multiscreen-org:service:dial:1" ++
    "\r\nLOCATION: http://10.0.2.100:40003/dd.xml\r\n\r\n")

def tvPacket : Packet where
  source := ⟨.v4 (.new 10 0 1 9), 1900⟩
  dest := ⟨.v4 Ssdp.ssdpGroupV4, Ssdp.ssdpPort⟩
  ttl := 2
  dstMac := none
  srcMac := none
  payload := tvMessage

def tvFrame : Bytes :=
  [0x45, 0, 0, 130, 0, 0, 0, 0, 2, 17, 0, 0, 10, 0, 1, 9, 239, 255, 255, 250,
    0x07, 0x6c, 0x07, 0x6c, 0, 110, 0, 0] ++ tvMessage

def tvCalls : MintCalls :=
  ⟨.ok [], .ok (3, 40003), .ok (4, 40004), fun _ => none, fun _ => none⟩

def tvPlacement : ProxyPlacement :=
  ⟨⟨0⟩, .new 10 0 2 100, ⟨1⟩, .new 10 0 1 5, none⟩

def tvAuthority : Authority := ⟨⟨.new 10 0 1 9, 8⟩, 81, 10⟩

def tvProxy : SocketAddrV4 := ⟨.new 10 0 2 100, 40003⟩

def tvGroup : SocketAddrV4 := ⟨Ssdp.ssdpGroupV4, Ssdp.ssdpPort⟩

theorem tvMessage_cameOut : CameOut tvMessage := by
  have hparse : Parsed.parse .rawIp tvFrame = .ok (.datagram tvPacket) := by
    decide +kernel
  exact CameOut.parsed (by decide +kernel) hparse

theorem rewrite_exact_and_fits_announced :
    ∃ context reactor,
      CameOut tvMessage ∧
      proxyAddress tvCalls 0 .new Reactor.new tvMessage tvPlacement =
        .ok (context, reactor, some (tvAuthority, tvProxy)) ∧
      rewriteLocation tvCalls 0 .new Reactor.new tvMessage tvPlacement =
        .ok (context, reactor, some proxiedMessage) ∧
      Readdressed tvMessage tvAuthority tvProxy proxiedMessage ∧
      (∃ written, (StreamBuffer.withCapacity maxFrameLen).clear.writeParts
          [tvMessage.take 81, authorityText tvProxy, tvMessage.drop 91] =
            .ok (some written) ∧ written.pending = .ok proxiedMessage) ∧
      ∃ frames, UdpFrames.ipv4 .rawIp tvProxy tvGroup 2 0 proxiedMessage
          (frameMtu (some 100)) = .ok frames ∧
        frames.count = 2 ∧ ∀ index < frames.count,
          ∃ frame, frames.write index maxFrameLen = .ok frame := by
  have hproxy : (proxyAddress tvCalls 0 .new Reactor.new tvMessage
      tvPlacement).map (fun found => found.2.2) =
        .ok (some (tvAuthority, tvProxy)) := by
    decide +kernel
  obtain ⟨⟨context, reactor, _⟩, hproxy, rfl⟩ := except_map_ok hproxy
  obtain ⟨hrewrite, hframes⟩ := rewrite_exact_and_fits
  obtain ⟨output, houtput, hreaddressed, hwrites⟩ :=
    hrewrite tvCalls 0 .new context Reactor.new reactor tvMessage tvPlacement
      tvAuthority tvProxy tvMessage_cameOut hproxy (by decide)
  have hsame : output = proxiedMessage :=
    hreaddressed.spliced.trans (by decide +kernel)
  subst hsame
  obtain ⟨written, hwritten, hpending⟩ := hwrites
    (.withCapacity maxFrameLen) [] [authorityText tvProxy]
    (StreamBuffer.holds_withCapacity maxFrameLen) rfl List.flatten_singleton
  have hcount : (UdpFrames.ipv4 .rawIp tvProxy tvGroup 2 0 proxiedMessage
      (frameMtu (some 100))).map (fun frames => frames.count) = .ok 2 := by
    decide +kernel
  obtain ⟨frames, hmade, hcount⟩ := except_map_ok hcount
  exact ⟨context, reactor, tvMessage_cameOut, hproxy, houtput, hreaddressed,
    ⟨written, hwritten, hpending⟩, frames, hmade, hcount,
    hframes .rawIp proxiedMessage (some 100) frames (.ipv4 _ _ _ _ hmade)⟩

end Netflector.Reflector.Dial

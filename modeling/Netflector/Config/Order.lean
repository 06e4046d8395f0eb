import Netflector.Config.Env

/-!
# The order of the variables

A variable has an effect of its own, and any two effects commute: they write
different slots, or they meet in one and then fail in either order.
-/

namespace Netflector.Config

open Netflector.Foundation
open Netflector.Net

/-! ## Effects -/

inductive Effect where
  | nothing
  | user (account : RunAs)
  | debugMemory (secs : Nat)
  | counters (secs : Nat)
  | param (tag : Text) (slot : Param) (value : slot.Value)

def paramEffect (parsers : ValueParsers) (rest key value : Text) :
    Option Effect :=
  match splitOnce '_' rest with
  | none => none
  | some (tag, param) =>
      if tag.isEmpty || !tag.all Char.isAlphanum then none
      else if reservedTag (asciiLowercase tag) then none
      else
        match Param.ofText (asciiLowercase param) with
        | none => none
        | some slot => (slot.parse parsers value key).toOption.map
            (.param (asciiLowercase tag) slot)

def effectOf (parsers : ValueParsers) (key value : Text) : Option Effect :=
  match stripText "NETFLECTOR_".toList key with
  | none => some .nothing
  | some rest =>
      if rest = "LOG_LEVEL".toList then
        (LogLevel.fromStr value).map fun _ => .nothing
      else if rest = "LOG_TARGET".toList then
        (LogTarget.fromStr value).map fun _ => .nothing
      else if rest = "USER".toList then (parsers.runAs value).map .user
      else if rest = "DEBUG_MEMORY_INTERVAL_SECS".toList then
        (parsers.seconds value).map .debugMemory
      else if rest = "COUNTERS_INTERVAL_SECS".toList then
        (parsers.seconds value).map .counters
      else paramEffect parsers rest key value

def Effect.apply (state : EnvState) : Effect → Option EnvState
  | .nothing => some state
  | .user account => some { state with user := some account }
  | .debugMemory secs =>
      some { state with debugMemoryIntervalSecs := some secs }
  | .counters secs => some { state with countersIntervalSecs := some secs }
  | .param tag slot value =>
      let partially := (state.partials.get tag).getD .default
      if (partially slot).isSome then none
      else some { state with
        partials := state.partials.insert tag
          (Function.update partially slot (some value)) }

theorem toOption_bind {Error First Value : Type}
    (action : Except Error First) (next : First → Except Error Value) :
    (action >>= next).toOption =
      action.toOption.bind fun first => (next first).toOption := by
  cases action <;> rfl

theorem toOption_envValue {Value : Type} (parse : Text → Option Value)
    (source : ParseValueError) (value var : Text) :
    (envValue parse source value var).toOption = parse value := by
  unfold envValue
  cases parse value <;> rfl

theorem parseParam_toOption (parsers : ValueParsers) (state : EnvState)
    (rest key value : Text) :
    (parseParam parsers state rest key value).toOption =
      (paramEffect parsers rest key value).bind (·.apply state) := by
  unfold parseParam paramEffect
  cases hsplit : splitOnce '_' rest with
  | none => rfl
  | some parts =>
      obtain ⟨tag, param⟩ := parts
      simp only
      split
      · rfl
      split
      · rfl
      rw [toOption_bind, PartialReflector.set]
      cases hslot : Param.ofText (asciiLowercase param) with
      | none => rfl
      | some slot =>
          simp only [toOption_bind]
          cases slot.parse parsers value key with
          | error error => rfl
          | ok parsed =>
              by_cases htaken : ((state.partials.get
                  (asciiLowercase tag)).getD .default slot).isSome = true
              · simp [Except.toOption, Effect.apply, htaken]
              · simp [Except.toOption, Effect.apply, htaken]

theorem parseVar_toOption (parsers : ValueParsers) (state : EnvState)
    (key value : Text) :
    (parseVar parsers state key value).toOption =
      (effectOf parsers key value).bind (·.apply state) := by
  unfold parseVar effectOf
  cases stripText "NETFLECTOR_".toList key with
  | none => rfl
  | some rest =>
      simp only
      split
      · rw [toOption_bind, toOption_envValue, Option.bind_map]
        rfl
      split
      · rw [toOption_bind, toOption_envValue, Option.bind_map]
        rfl
      split
      · rw [toOption_bind, toOption_envValue, Option.bind_map]
        rfl
      split
      · rw [toOption_bind, toOption_envValue, Option.bind_map]
        rfl
      split
      · rw [toOption_bind, toOption_envValue, Option.bind_map]
        rfl
      · exact parseParam_toOption parsers state rest key value

/-! ## They commute -/

def Effect.global : Effect → Option Text
  | .user _ => some "USER".toList
  | .debugMemory _ => some "DEBUG_MEMORY_INTERVAL_SECS".toList
  | .counters _ => some "COUNTERS_INTERVAL_SECS".toList
  | .nothing | .param _ _ _ => none

theorem param_comm {tag tag' : Text} {slot slot' : Param} {value : slot.Value}
    {value' : slot'.Value} (state : EnvState) :
    ((Effect.param tag slot value).apply state).bind
        (fun later => (Effect.param tag' slot' value').apply later) =
      ((Effect.param tag' slot' value').apply state).bind
        (fun later => (Effect.param tag slot value).apply later) := by
  simp only [Effect.apply]
  by_cases htag : tag' = tag
  · subst htag
    by_cases hslot : slot' = slot
    · subst hslot
      -- They meet in one slot, and the second fails.
      split
      · rfl
      · simp
    · split
      · rename_i hfirst
        split
        · rfl
        · simp [hfirst, Function.update_of_ne (Ne.symm hslot)]
      · rename_i hfirst
        simp only [Option.bind_some, SortedMap.get_insert_self,
          Option.getD_some, Function.update_of_ne hslot]
        split
        · rfl
        · simp only [Option.bind_some, SortedMap.get_insert_self,
            Option.getD_some, Function.update_of_ne (Ne.symm hslot), hfirst,
            SortedMap.insert_insert, Bool.false_eq_true, if_false]
          rw [Function.update_comm hslot]
  · split
    · rename_i hfirst
      split
      · rfl
      · simp [SortedMap.get_insert_ne (Ne.symm htag), hfirst]
    · rename_i hfirst
      simp only [Option.bind_some, SortedMap.get_insert_ne htag]
      split
      · rfl
      · simp only [Option.bind_some, SortedMap.get_insert_ne (Ne.symm htag),
          hfirst, Bool.false_eq_true, if_false]
        rw [SortedMap.insert_comm (Ne.symm htag)]

theorem global_comm {effect : Effect} {tag : Text} {slot : Param}
    {value : slot.Value}
    (h : ∀ tag slot value, effect ≠ .param tag slot value)
    (state : EnvState) :
    (effect.apply state).bind
        (fun later => (Effect.param tag slot value).apply later) =
      ((Effect.param tag slot value).apply state).bind
        (fun later => effect.apply later) := by
  by_cases htaken : ((state.partials.get tag).getD .default slot).isSome = true
  · cases effect with
    | param tag slot value => exact absurd rfl (h tag slot value)
    | _ => simp [Effect.apply, htaken]
  · cases effect with
    | param tag slot value => exact absurd rfl (h tag slot value)
    | _ => simp [Effect.apply, htaken]

theorem apply_comm {first second : Effect}
    (h : first.global = none ∨ first.global ≠ second.global)
    (state : EnvState) :
    (first.apply state).bind (fun later => second.apply later) =
      (second.apply state).bind (fun later => first.apply later) := by
  cases second with
  | param tag slot value =>
      cases first with
      | param tag' slot' value' => exact param_comm state
      | _ => exact global_comm (by simp) state
  | _ =>
      cases first with
      | param tag' slot' value' => exact (global_comm (by simp) state).symm
      | _ => first | rfl | simp [Effect.global] at h

/-! ## A variable's name -/

theorem stripText_some {opening text rest : Text}
    (h : stripText opening text = some rest) : text = opening ++ rest := by
  unfold stripText at h
  split at h
  · rename_i hopening
    cases h
    exact (List.prefix_iff_eq_append.mp
      (List.isPrefixOf_iff_prefix.mp hopening)).symm
  · cases h

theorem paramEffect_param {parsers : ValueParsers}
    {rest key value : Text} {effect : Effect}
    (h : paramEffect parsers rest key value = some effect) :
    ∃ tag param slot value, splitOnce '_' rest = some (tag, param) ∧
      tag.all Char.isAlphanum = true ∧
      reservedTag (asciiLowercase tag) = false ∧
      Param.ofText (asciiLowercase param) = some slot ∧
      effect = .param (asciiLowercase tag) slot value := by
  unfold paramEffect at h
  split at h
  · cases h
  rename_i tag param hsplit
  split at h
  · cases h
  rename_i htag
  split at h
  · cases h
  rename_i hreserved
  split at h
  · cases h
  rename_i slot hslot
  obtain ⟨parsed, _, rfl⟩ := Option.map_eq_some_iff.mp h
  simp only [Bool.or_eq_true, Bool.not_eq_true', not_or,
    Bool.not_eq_false] at htag
  exact ⟨tag, param, slot, parsed, hsplit, htag.2,
    Bool.eq_false_of_not_eq_true hreserved, hslot, rfl⟩

theorem effectOf_global {parsers : ValueParsers} {key value rest : Text}
    {effect : Effect} (h : effectOf parsers key value = some effect)
    (hglobal : effect.global = some rest) :
    key = "NETFLECTOR_".toList ++ rest := by
  unfold effectOf at h
  cases hstrip : stripText "NETFLECTOR_".toList key with
  | none =>
      simp only [hstrip] at h
      cases h
      cases hglobal
  | some behind =>
      rw [stripText_some hstrip]
      simp only [hstrip] at h
      suffices hrest : rest = behind by rw [hrest]
      split at h
      · obtain ⟨_, _, rfl⟩ := Option.map_eq_some_iff.mp h
        cases hglobal
      split at h
      · obtain ⟨_, _, rfl⟩ := Option.map_eq_some_iff.mp h
        cases hglobal
      split at h
      · rename_i hbehind
        obtain ⟨_, _, rfl⟩ := Option.map_eq_some_iff.mp h
        exact (Option.some.inj hglobal).symm.trans hbehind.symm
      split at h
      · rename_i hbehind
        obtain ⟨_, _, rfl⟩ := Option.map_eq_some_iff.mp h
        exact (Option.some.inj hglobal).symm.trans hbehind.symm
      split at h
      · rename_i hbehind
        obtain ⟨_, _, rfl⟩ := Option.map_eq_some_iff.mp h
        exact (Option.some.inj hglobal).symm.trans hbehind.symm
      · obtain ⟨_, _, _, _, _, _, _, _, rfl⟩ := paramEffect_param h
        cases hglobal

/-! ## Any order of the variables -/

section Orders

variable {parsers : ValueParsers}

def absorb (parsers : ValueParsers) (state : Option EnvState)
    (var : Text × Text) : Option EnvState :=
  state.bind fun state =>
    (effectOf parsers var.1 var.2).bind (·.apply state)

theorem absorb_none (vars : List (Text × Text)) :
    vars.foldl (absorb parsers) none = none := by
  induction vars with
  | nil => rfl
  | cons var vars ih => exact ih

theorem parseVars_toOption (state : EnvState) (vars : List (Text × Text)) :
    (parseVars parsers state vars).toOption =
      vars.foldl (absorb parsers) (some state) := by
  induction vars generalizing state with
  | nil => rfl
  | cons var vars ih =>
      rw [parseVars, toOption_bind, parseVar_toOption, List.foldl_cons]
      change _ = vars.foldl (absorb parsers)
        ((effectOf parsers var.1 var.2).bind (·.apply state))
      cases (effectOf parsers var.1 var.2).bind (·.apply state) with
      | none => exact (absorb_none vars).symm
      | some later => exact ih later

theorem absorb_comm {first second : Text × Text} (h : first.1 ≠ second.1)
    (state : Option EnvState) :
    absorb parsers (absorb parsers state first) second =
      absorb parsers (absorb parsers state second) first := by
  unfold absorb
  cases state with
  | none => rfl
  | some state =>
      cases hfirst : effectOf parsers first.1 first.2 with
      | none => simp
      | some effect =>
          cases hsecond : effectOf parsers second.1 second.2 with
          | none => simp
          | some other =>
              simp only [Option.bind_some]
              refine apply_comm ?_ state
              by_contra hmeet
              rw [not_or, not_not] at hmeet
              obtain ⟨rest, hrest⟩ := Option.ne_none_iff_exists'.mp hmeet.1
              have hkey := effectOf_global hfirst hrest
              rw [hmeet.2] at hrest
              exact h (hkey.trans (effectOf_global hsecond hrest).symm)

theorem parseVars_perm {vars others : List (Text × Text)}
    (hnames : (vars.map Prod.fst).Nodup) (hperm : others.Perm vars) :
    (parseVars parsers .new others).toOption =
      (parseVars parsers .new vars).toOption := by
  rw [parseVars_toOption, parseVars_toOption]
  refine (hperm.symm.foldl_eq' ?_ _).symm
  intro first hfirst second hsecond state
  by_cases hsame : first = second
  · rw [hsame]
  · refine absorb_comm (fun hkey => hsame ?_) state
    exact List.inj_on_of_nodup_map hnames hfirst hsecond hkey

theorem parseEnv_toOption (vars : List (Text × Text)) :
    (parseEnv parsers vars).toOption =
      (parseVars parsers .new vars).toOption.bind fun state =>
        (rawReflectors state.partials.entries .new).toOption.map
          fun reflectors => ⟨state.user, state.debugMemoryIntervalSecs,
            state.countersIntervalSecs, reflectors⟩ := by
  unfold parseEnv
  rw [toOption_bind]
  congr 1
  funext state
  rw [toOption_bind]
  cases rawReflectors state.partials.entries .new <;> rfl

theorem parseEnv_perm {vars others : List (Text × Text)}
    (hnames : (vars.map Prod.fst).Nodup) (hperm : others.Perm vars) :
    (parseEnv parsers others).toOption =
      (parseEnv parsers vars).toOption := by
  rw [parseEnv_toOption, parseEnv_toOption, parseVars_perm hnames hperm]

/-! ## Two variables for one parameter -/

def namedParam (key : Text) : Option (Text × Text) :=
  (stripText "NETFLECTOR_".toList key).bind fun rest =>
    (splitOnce '_' rest).map fun parts =>
      (asciiLowercase parts.1, asciiLowercase parts.2)

/-- The globals whose variables have the form of a parameter's. -/
def tagged : List Text :=
  ["LOG_LEVEL".toList, "LOG_TARGET".toList,
    "DEBUG_MEMORY_INTERVAL_SECS".toList, "COUNTERS_INTERVAL_SECS".toList]

theorem tagged_reserved : ∀ rest ∈ tagged, ∀ parts,
    splitOnce '_' rest = some parts →
      reservedTag (asciiLowercase parts.1) = true := by
  decide

theorem tagged_apart : ∀ rest ∈ tagged, ∀ other ∈ tagged,
    (splitOnce '_' rest).map (fun parts =>
      (asciiLowercase parts.1, asciiLowercase parts.2)) =
    (splitOnce '_' other).map (fun parts =>
      (asciiLowercase parts.1, asciiLowercase parts.2)) → rest = other := by
  decide

theorem named_effect {key value tag param : Text} {effect : Effect}
    (hnamed : namedParam key = some (tag, param))
    (h : effectOf parsers key value = some effect) :
    (∃ rest ∈ tagged, stripText "NETFLECTOR_".toList key = some rest ∧
      reservedTag tag = true) ∨
    reservedTag tag = false ∧ ∃ slot value,
      Param.ofText param = some slot ∧ effect = .param tag slot value := by
  obtain ⟨rest, hstrip, hparts⟩ := Option.bind_eq_some_iff.mp hnamed
  obtain ⟨parts, hsplit, hlower⟩ := Option.map_eq_some_iff.mp hparts
  simp only [Prod.mk.injEq] at hlower
  obtain ⟨rfl, rfl⟩ := hlower
  by_cases htagged : rest ∈ tagged
  · exact .inl ⟨rest, htagged, hstrip, tagged_reserved rest htagged parts
      hsplit⟩
  · refine .inr ?_
    have huser : rest ≠ "USER".toList := by
      rintro rfl
      have hnone : splitOnce '_' "USER".toList = none := by decide
      rw [hnone] at hsplit
      cases hsplit
    simp only [tagged, List.mem_cons, List.not_mem_nil, or_false,
      not_or] at htagged
    unfold effectOf at h
    simp only [hstrip, htagged, huser, if_false] at h
    obtain ⟨_, _, slot, parsed, hsplit', _, hreserved, hslot, rfl⟩ :=
      paramEffect_param h
    rw [hsplit] at hsplit'
    cases hsplit'
    exact ⟨hreserved, slot, parsed, hslot, rfl⟩

theorem absorb_twice {first second : Text × Text} {name : Text × Text}
    (hne : first.1 ≠ second.1) (hfirst : namedParam first.1 = some name)
    (hsecond : namedParam second.1 = some name) (state : EnvState) :
    absorb parsers (absorb parsers (some state) first) second = none := by
  obtain ⟨tag, param⟩ := name
  simp only [absorb, Option.bind_some]
  cases heffect : effectOf parsers first.1 first.2 with
  | none => rfl
  | some effect =>
      cases hother : effectOf parsers second.1 second.2 with
      | none => simp
      | some other =>
          rcases named_effect hfirst heffect with
            ⟨rest, hrest, hstrip, hreserved⟩ |
            ⟨hreserved, slot, value, hslot, rfl⟩
          · rcases named_effect hsecond hother with
              ⟨rest', hrest', hstrip', _⟩ | ⟨hreserved', _⟩
            · -- Two globals of one tag and parameter are one variable.
              have hsame : rest = rest' := by
                refine tagged_apart rest hrest rest' hrest' ?_
                unfold namedParam at hfirst hsecond
                rw [hstrip, Option.bind_some] at hfirst
                rw [hstrip', Option.bind_some] at hsecond
                rw [hfirst, hsecond]
              refine absurd ?_ hne
              rw [stripText_some hstrip, stripText_some hstrip', hsame]
            · rw [hreserved] at hreserved'
              cases hreserved'
          · rcases named_effect hsecond hother with
              ⟨_, _, _, hreserved'⟩ | ⟨_, slot', value', hslot', rfl⟩
            · rw [hreserved] at hreserved'
              cases hreserved'
            · rw [hslot] at hslot'
              cases hslot'
              simp only [Option.bind_some, Effect.apply]
              split
              · rfl
              · simp

theorem parseEnv_twice {vars : List (Text × Text)}
    (hnames : (vars.map Prod.fst).Nodup) {first second : Text × Text}
    {name : Text × Text} (hfirst : first ∈ vars) (hsecond : second ∈ vars)
    (hne : first.1 ≠ second.1) (hnamed : namedParam first.1 = some name)
    (hnamed' : namedParam second.1 = some name) :
    (parseEnv parsers vars).toOption = none := by
  have hrest : second ∈ vars.erase first := by
    rw [List.mem_erase_of_ne]
    · exact hsecond
    · rintro rfl
      exact hne rfl
  have hperm : (first :: second :: (vars.erase first).erase second).Perm
      vars :=
    ((List.perm_cons_erase hrest).symm.cons first).trans
      (List.perm_cons_erase hfirst).symm
  rw [← parseEnv_perm hnames hperm, parseEnv_toOption, parseVars_toOption,
    List.foldl_cons, List.foldl_cons, absorb_twice hne hnamed hnamed',
    absorb_none]
  rfl

/-! ## The tags -/

theorem toLower_toNat {char : Char} (h : char.isAlphanum = true) :
    (48 ≤ char.toLower.toNat ∧ char.toLower.toNat ≤ 57) ∨
      (97 ≤ char.toLower.toNat ∧ char.toLower.toNat ≤ 122) := by
  have hranges : (decide ('A'.val ≤ char.val ∧ char.val ≤ 'Z'.val) ||
      ('a'.val ≤ char.val && char.val ≤ 'z'.val) ||
      ('0'.val ≤ char.val && char.val ≤ '9'.val)) = true := h
  simp only [Bool.or_eq_true, Bool.and_eq_true, decide_eq_true_eq,
    UInt32.le_iff_toNat_le, Char.reduceVal, UInt32.reduceToNat] at hranges
  unfold Char.toLower
  split
  · rename_i hupper
    simp only [ge_iff_le, UInt32.le_iff_toNat_le, Char.reduceVal,
      UInt32.reduceToNat] at hupper
    simp only [Char.toNat, UInt32.toNat_add, Char.reduceVal,
      UInt32.reduceSub, UInt32.reduceToNat]
    omega
  · rename_i hupper
    simp only [ge_iff_le, UInt32.le_iff_toNat_le, Char.reduceVal,
      UInt32.reduceToNat] at hupper
    simp only [Char.toNat]
    omega

theorem alphanum_plain {char : Char} (h : char.isAlphanum = true) :
    isWhitespace char.toLower = false := by
  have hrange := toLower_toNat h
  simp only [isWhitespace, Bool.or_eq_false_iff, Bool.and_eq_false_iff,
    decide_eq_false_iff_not, List.contains_eq_mem, List.mem_cons,
    List.not_mem_nil, or_false]
  omega

def Plain (text : Text) : Prop := ∀ char ∈ text, isWhitespace char = false

theorem Plain.trim {text : Text} (h : Plain text) :
    Config.trim text = text := by
  have hdrop : ∀ text : Text, Plain text →
      text.dropWhile isWhitespace = text := by
    intro text hplain
    cases text with
    | nil => rfl
    | cons char rest =>
        rw [List.dropWhile_cons, hplain char List.mem_cons_self]
        rfl
  unfold Config.trim
  rw [hdrop text h, hdrop text.reverse, List.reverse_reverse]
  intro char hmem
  exact h char (List.mem_reverse.mp hmem)

theorem apply_plain {effect : Effect} {state later : EnvState}
    (htag : ∀ tag slot value, effect = .param tag slot value → Plain tag)
    (hplain : ∀ tag ∈ state.partials.keys, Plain tag)
    (h : effect.apply state = some later) :
    ∀ tag ∈ later.partials.keys, Plain tag := by
  cases effect with
  | param tag slot value =>
      simp only [Effect.apply] at h
      split at h
      · cases h
      cases h
      intro key hmem
      by_cases hkey : key = tag
      · rw [hkey]
        exact htag tag slot value rfl
      · rw [SortedMap.mem_keys, SortedMap.get_insert_ne hkey,
          ← SortedMap.mem_keys] at hmem
        exact hplain key hmem
  | _ =>
      cases h
      exact hplain

theorem effectOf_plain {key value : Text} {tag : Text} {slot : Param}
    {parsed : slot.Value}
    (h : effectOf parsers key value = some (.param tag slot parsed)) :
    Plain tag := by
  unfold effectOf at h
  split at h
  · cases h
  split at h
  · obtain ⟨_, _, heq⟩ := Option.map_eq_some_iff.mp h
    cases heq
  split at h
  · obtain ⟨_, _, heq⟩ := Option.map_eq_some_iff.mp h
    cases heq
  split at h
  · obtain ⟨_, _, heq⟩ := Option.map_eq_some_iff.mp h
    cases heq
  split at h
  · obtain ⟨_, _, heq⟩ := Option.map_eq_some_iff.mp h
    cases heq
  split at h
  · obtain ⟨_, _, heq⟩ := Option.map_eq_some_iff.mp h
    cases heq
  obtain ⟨named, _, _, _, _, halnum, _, _, heq⟩ := paramEffect_param h
  cases heq
  intro char hmem
  obtain ⟨original, horiginal, rfl⟩ := List.mem_map.mp hmem
  exact alphanum_plain (List.all_eq_true.mp halnum original horiginal)

theorem parseVars_plain {state later : EnvState}
    {vars : List (Text × Text)}
    (hplain : ∀ tag ∈ state.partials.keys, Plain tag)
    (h : parseVars parsers state vars = .ok later) :
    ∀ tag ∈ later.partials.keys, Plain tag := by
  induction vars generalizing state with
  | nil =>
      cases h
      exact hplain
  | cons var vars ih =>
      obtain ⟨next, hnext, h⟩ := except_bind_ok h
      refine ih ?_ h
      have hstep := parseVar_toOption parsers state var.1 var.2
      rw [hnext] at hstep
      obtain ⟨effect, heffect, happly⟩ :=
        Option.bind_eq_some_iff.mp hstep.symm
      refine apply_plain ?_ hplain happly
      rintro tag slot value rfl
      exact effectOf_plain heffect

theorem rawReflectors_keys {entries : List (Text × PartialReflector)}
    {reflectors later : SortedMap Text RawReflector}
    (h : rawReflectors entries reflectors = .ok later) :
    ∀ key ∈ later.keys, key ∈ reflectors.keys ∨
      key ∈ entries.map Prod.fst := by
  induction entries generalizing reflectors with
  | nil =>
      cases h
      exact fun key hmem => .inl hmem
  | cons entry entries ih =>
      obtain ⟨raw, _, h⟩ := except_bind_ok h
      intro key hmem
      rcases ih h key hmem with hkey | hkey
      · by_cases hname : key = entry.1
        · exact .inr (by simp [hname])
        · rw [SortedMap.mem_keys, SortedMap.get_insert_ne hname,
            ← SortedMap.mem_keys] at hkey
          exact .inl hkey
      · exact .inr (List.mem_cons_of_mem _ hkey)

theorem parseEnv_plain {vars : List (Text × Text)} {env : RawConfig}
    (h : parseEnv parsers vars = .ok env) :
    ∀ key ∈ env.reflectors.keys, Plain key := by
  obtain ⟨state, hstate, h⟩ := except_bind_ok h
  obtain ⟨reflectors, hreflectors, h⟩ := except_bind_ok h
  cases h
  intro key hmem
  rcases rawReflectors_keys hreflectors key hmem with hnone | hkey
  · cases hnone
  · refine parseVars_plain ?_ hstate key hkey
    intro tag hnone
    cases hnone

end Orders

/-! ## The merge -/

def folded (key : Text) : Text := asciiLowercase (trim key)

theorem mergeReflectors_ok {entries : List (Text × RawReflector)}
    {reflectors merged : SortedMap Text RawReflector}
    (hplain : ∀ entry ∈ entries, Plain entry.1)
    (h : mergeReflectors entries reflectors = .ok merged) :
    (∀ first ∈ merged.keys, ∀ second ∈ merged.keys, first ≠ second →
      folded first = folded second →
        first ∈ reflectors.keys ∧ second ∈ reflectors.keys) ∧
    ∀ key raw, merged.get key = some raw ↔
      reflectors.get key = some raw ∨ (key, raw) ∈ entries := by
  induction entries generalizing reflectors with
  | nil =>
      cases h
      exact ⟨fun first hfirst second hsecond _ _ => ⟨hfirst, hsecond⟩,
        by simp⟩
  | cons entry entries ih =>
      obtain ⟨name, raw⟩ := entry
      rw [List.forall_mem_cons] at hplain
      rw [mergeReflectors, except_guard_ok] at h
      obtain ⟨hfree, h⟩ := h
      have hname : folded name = asciiLowercase name := by
        rw [folded, hplain.1.trim]
      have hnew : ∀ key ∈ reflectors.keys, folded key ≠ folded name := by
        intro key hmem heq
        refine hfree (List.any_eq_true.mpr ⟨key, hmem, ?_⟩)
        exact decide_eq_true (heq.trans hname)
      have hkeys : ∀ key, key ∈ (reflectors.insert name raw).keys ↔
          key = name ∨ key ∈ reflectors.keys := by
        intro key
        by_cases hkey : key = name
        · simp [SortedMap.mem_keys, hkey]
        · simp [SortedMap.mem_keys, SortedMap.get_insert_ne hkey, hkey]
      obtain ⟨hapart, hheld⟩ := ih hplain.2 h
      refine ⟨?_, ?_⟩
      · intro first hfirst second hsecond hne heq
        obtain ⟨hin, hin'⟩ := hapart first hfirst second hsecond hne heq
        rcases (hkeys first).mp hin with rfl | hkept
        · rcases (hkeys second).mp hin' with rfl | hkept'
          · exact absurd rfl hne
          · exact absurd heq.symm (hnew second hkept')
        · rcases (hkeys second).mp hin' with rfl | hkept'
          · exact absurd heq (hnew first hkept)
          · exact ⟨hkept, hkept'⟩
      · intro key found
        rw [hheld, List.mem_cons, Prod.mk.injEq]
        by_cases hkey : key = name
        · subst hkey
          have hnone : reflectors.get key = none := by
            rw [← Option.not_isSome_iff_eq_none]
            intro hsome
            exact hnew key (SortedMap.mem_keys.mpr hsome) rfl
          rw [SortedMap.get_insert_self, hnone, Option.some.injEq]
          simp [eq_comm]
        · rw [SortedMap.get_insert_ne hkey]
          simp [hkey]

/-! ## The environment as a set -/

/-- Neither the order of the variables nor that of the sources decides what the
environment sets. -/
theorem environment_unordered (parsers : ValueParsers)
    {vars : List (Text × Text)} (hnames : (vars.map Prod.fst).Nodup) :
    (∀ others, others.Perm vars →
      ((∃ error, parseEnv parsers vars = .error error) ∧
        ∃ error, parseEnv parsers others = .error error) ∨
      ∃ raw, parseEnv parsers vars = .ok raw ∧
        parseEnv parsers others = .ok raw) ∧
    (∀ first ∈ vars, ∀ second ∈ vars, first.1 ≠ second.1 → ∀ name,
      namedParam first.1 = some name → namedParam second.1 = some name →
        ∃ error, parseEnv parsers vars = .error error) ∧
    ∀ file env merged, parseEnv parsers vars = .ok env →
      RawConfig.mergeEnv file env = .ok merged →
      (∀ first ∈ merged.reflectors.keys, ∀ second ∈ merged.reflectors.keys,
        first ≠ second → folded first = folded second →
          first ∈ file.reflectors.keys ∧ second ∈ file.reflectors.keys) ∧
      (∀ key raw, merged.reflectors.get key = some raw ↔
        file.reflectors.get key = some raw ∨
          env.reflectors.get key = some raw) ∧
      merged.user = env.user.or file.user ∧
      merged.debugMemoryIntervalSecs =
        env.debugMemoryIntervalSecs.or file.debugMemoryIntervalSecs ∧
      merged.countersIntervalSecs =
        env.countersIntervalSecs.or file.countersIntervalSecs := by
  refine ⟨?_, ?_, ?_⟩
  · intro others hperm
    have hsame : (parseEnv parsers others).toOption =
        (parseEnv parsers vars).toOption := parseEnv_perm hnames hperm
    cases hvars : parseEnv parsers vars with
    | ok raw =>
        rw [hvars] at hsame
        cases hothers : parseEnv parsers others with
        | ok other =>
            rw [hothers] at hsame
            cases hsame
            exact .inr ⟨raw, rfl, rfl⟩
        | error error =>
            rw [hothers] at hsame
            cases hsame
    | error error =>
        rw [hvars] at hsame
        cases hothers : parseEnv parsers others with
        | ok other =>
            rw [hothers] at hsame
            cases hsame
        | error other => exact .inl ⟨⟨error, rfl⟩, other, rfl⟩
  · intro first hfirst second hsecond hne name hnamed hnamed'
    have hnone : (parseEnv parsers vars).toOption = none :=
      parseEnv_twice hnames hfirst hsecond hne hnamed hnamed'
    cases hvars : parseEnv parsers vars with
    | ok raw =>
        rw [hvars] at hnone
        cases hnone
    | error error => exact ⟨error, rfl⟩
  · intro file env merged henv hmerged
    obtain ⟨reflectors, hreflectors, hmerged⟩ := except_bind_ok hmerged
    cases hmerged
    have hplain : ∀ entry ∈ env.reflectors.entries, Plain entry.1 :=
      fun entry hmem => parseEnv_plain henv entry.1
        (List.mem_map_of_mem hmem)
    obtain ⟨hapart, hheld⟩ := mergeReflectors_ok hplain hreflectors
    refine ⟨hapart, ?_, rfl, rfl, rfl⟩
    intro key raw
    rw [hheld]
    exact or_congr_right SortedMap.get_eq_some.symm

def plainParsers : ValueParsers where
  runAs := fun _ => none
  seconds := fun _ => none
  interface := fun text => some (text.map fun char => UInt8.ofNat char.toNat)
  peers := fun _ => none
  macs := fun _ => none
  ports := fun _ => none
  groups := fun _ => none
  services := fun _ => none

def tvVars : List (Text × Text) :=
  [("NETFLECTOR_TV_SOURCE_IF".toList, "lan".toList),
    ("NETFLECTOR_TV_TARGET_IF".toList, "iot".toList),
    ("NETFLECTOR_tv_mdns".toList, "TRUE".toList)]

def tvTwice : List (Text × Text) :=
  tvVars ++ [("NETFLECTOR_TV_MDNS".toList, "false".toList)]

def pcFile : RawConfig :=
  ⟨some ⟨.id 65534, none⟩, none, some 60,
    .single "pc".toList (.between [0x61] [0x62])⟩

theorem tvVars_unordered :
    (tvVars.map Prod.fst).Nodup ∧
      (∃ raw, parseEnv plainParsers tvVars = .ok raw ∧
        parseEnv plainParsers tvVars.reverse = .ok raw) ∧
      (∃ error, parseEnv plainParsers tvTwice = .error error) ∧
      ∃ env merged, parseEnv plainParsers tvVars = .ok env ∧
        RawConfig.mergeEnv pcFile env = .ok merged ∧
        merged.reflectors.keys = ["pc".toList, "tv".toList] ∧
        (∀ key raw, merged.reflectors.get key = some raw ↔
          pcFile.reflectors.get key = some raw ∨
            env.reflectors.get key = some raw) ∧
        merged.user = pcFile.user ∧ merged.countersIntervalSecs = some 60 := by
  have hnames : (tvVars.map Prod.fst).Nodup := by decide
  have htwice : (tvTwice.map Prod.fst).Nodup := by decide
  refine ⟨hnames, ?_, ?_, ?_⟩
  · rcases (environment_unordered plainParsers hnames).1 tvVars.reverse
      (List.reverse_perm _) with ⟨⟨error, herror⟩, _⟩ | hraw
    · cases herror
    · exact hraw
  · exact (environment_unordered plainParsers htwice).2.1
      ("NETFLECTOR_tv_mdns".toList, "TRUE".toList) (by decide)
      ("NETFLECTOR_TV_MDNS".toList, "false".toList) (by decide) (by decide)
      ("tv".toList, "mdns".toList) rfl rfl
  · obtain ⟨env, merged, henv, hmerged, hkeys⟩ : ∃ env merged,
        parseEnv plainParsers tvVars = .ok env ∧
        RawConfig.mergeEnv pcFile env = .ok merged ∧
        merged.reflectors.keys = ["pc".toList, "tv".toList] :=
      ⟨_, _, rfl, rfl, rfl⟩
    obtain ⟨_, hheld, huser, _, hcounters⟩ :=
      (environment_unordered plainParsers hnames).2.2 pcFile env merged henv
        hmerged
    cases henv
    exact ⟨_, merged, rfl, hmerged, hkeys, hheld, huser, hcounters⟩

end Netflector.Config

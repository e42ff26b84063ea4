import Mathlib.Data.List.TakeWhile
import SoapRelay.Proofs.Tables
import SoapRelay.Proofs.Utf8
import SoapRelay.Settings.Parts

/-!
# Which override decides how long a caller waits

The first override whose key names the context decides, whatever the payload is, and only where there is
none the first whose key occurs in the payload. The overrides of a configuration stand in the byte order of
their keys, of which none is given twice, so the order in which they were written does not matter.
-/

namespace SoapRelay

theorem occursIn_iff {part cs : List Char} : occursIn part cs = true ↔ part <:+: cs := by
  induction cs with
  | nil => rw [occursIn, List.isEmpty_iff, List.infix_nil]
  | cons c cs ih => rw [occursIn, Bool.or_eq_true, List.isPrefixOf_iff_prefix, ih, List.infix_cons_iff]

theorem bareContext_slashes (n : Nat) (cs : List Char) : bareContext (List.replicate n '/' ++ cs) = bareContext cs := by
  apply List.dropWhile_append_of_pos
  intro c member
  exact decide_eq_true (List.eq_of_mem_replicate member)

theorem exists_slashes (cs : List Char) : ∃ n, cs = List.replicate n '/' ++ bareContext cs := by
  have slashes : ∀ c ∈ cs.takeWhile (· = '/'), c = '/' := by
    intro c member
    have fits := List.mem_takeWhile_imp member
    exact of_decide_eq_true fits
  refine ⟨(cs.takeWhile (· = '/')).length, ?_⟩
  rw [← List.eq_replicate_of_mem slashes]
  exact List.takeWhile_append_dropWhile.symm

namespace Deadlines

/-- The two are the same text behind any number of slashes. -/
def SameContext (a b : String) : Prop :=
  ∃ m n bare, a.toList = List.replicate m '/' ++ bare ∧ b.toList = List.replicate n '/' ++ bare

/-- The key is not empty and occurs in the payload. -/
def Occurs (key payload : String) : Prop :=
  key ≠ "" ∧ key.toList <:+: payload.toList

/-- The waiting time belongs to the first override whose key fits. -/
def First (fits : String → Prop) (overrides : List (String × Nat)) (wait : Nat) : Prop :=
  ∃ before key after, overrides = before ++ (key, wait) :: after ∧ fits key ∧ ∀ e ∈ before, ¬ fits e.1

theorem sameContext_iff {a b : String} : SameContext a b ↔ bareContext a.toList = bareContext b.toList := by
  constructor
  · rintro ⟨m, n, bare, first, second⟩
    rw [first, second, bareContext_slashes, bareContext_slashes]
  · intro same
    obtain ⟨m, first⟩ := exists_slashes a.toList
    obtain ⟨n, second⟩ := exists_slashes b.toList
    exact ⟨m, n, _, first, same ▸ second⟩

instance (a b : String) : Decidable (SameContext a b) := decidable_of_iff _ sameContext_iff.symm

instance (key payload : String) : Decidable (Occurs key payload) := inferInstanceAs (Decidable (_ ∧ _))

theorem matchesContext_iff {context : String} {e : String × Nat} :
    matchesContext context e ↔ SameContext e.1 context := by
  rw [matchesContext, decide_eq_true_iff, sameContext_iff]

theorem matchesPayload_iff {payload : String} {e : String × Nat} :
    matchesPayload payload e ↔ Occurs e.1 payload := by
  rw [matchesPayload, Bool.and_eq_true, occursIn_iff, Bool.not_eq_true', Bool.eq_false_iff, ne_eq, String.isEmpty_iff]
  rfl

theorem first_of_find? {fits : String → Prop} {overrides : List (String × Nat)} {e : String × Nat}
    {fits? : String × Nat → Bool} (same : ∀ {e}, fits? e ↔ fits e.1) (found : overrides.find? fits? = some e) :
    First fits overrides e.2 := by
  obtain ⟨here, before, after, split, others⟩ := List.find?_eq_some_iff_append.mp found
  refine ⟨before, e.1, after, split, same.mp here, fun other member fit => ?_⟩
  have passed := others other member
  rw [same.mpr fit] at passed
  cases passed

variable {d : Deadlines} {context payload : String}

theorem find?_context :
    d.overrides.find? (matchesContext context) = none ↔ ∀ e ∈ d.overrides, ¬ SameContext e.1 context := by
  rw [List.find?_eq_none]
  exact forall₂_congr fun _ _ => not_congr matchesContext_iff

theorem find?_payload :
    d.overrides.find? (matchesPayload payload) = none ↔ ∀ e ∈ d.overrides, ¬ Occurs e.1 payload := by
  rw [List.find?_eq_none]
  exact forall₂_congr fun _ _ => not_congr matchesPayload_iff

theorem waitFor_congr {other : String} (same : SameContext other context) :
    d.waitFor other payload = d.waitFor context payload := by
  have matches_ : matchesContext other = matchesContext context := by
    funext e
    rw [matchesContext, matchesContext, sameContext_iff.mp same]
  rw [waitFor, waitFor, matches_]

/-- An override whose key names the context decides alone. -/
theorem waitFor_of_named (named : ∃ e ∈ d.overrides, SameContext e.1 context) :
    First (SameContext · context) d.overrides (d.waitFor context payload) ∧
      ∀ other, d.waitFor context other = d.waitFor context payload := by
  cases found : d.overrides.find? (matchesContext context) with
  | none =>
    obtain ⟨e, member, same⟩ := named
    exact absurd same (find?_context.mp found e member)
  | some e =>
    have decided : ∀ other, d.waitFor context other = e.2 := by
      intro other
      rw [waitFor, found]
    refine ⟨?_, fun other => (decided other).trans (decided payload).symm⟩
    rw [decided payload]
    exact first_of_find? matchesContext_iff found

theorem waitFor_of_unnamed (unnamed : ∀ e ∈ d.overrides, ¬ SameContext e.1 context) :
    ((∃ e ∈ d.overrides, Occurs e.1 payload) → First (Occurs · payload) d.overrides (d.waitFor context payload)) ∧
      ((∀ e ∈ d.overrides, ¬ Occurs e.1 payload) → d.waitFor context payload = d.default) := by
  rw [waitFor, find?_context.mpr unnamed]
  refine ⟨fun marked => ?_, fun unmarked => ?_⟩
  · cases found : d.overrides.find? (matchesPayload payload) with
    | none =>
      obtain ⟨e, member, occurs⟩ := marked
      exact absurd occurs (find?_payload.mp found e member)
    | some e => exact first_of_find? matchesPayload_iff found
  · rw [find?_payload.mpr unmarked]

/-- An override that was added last only decides where no other one does. -/
theorem waitFor_withOverride {key : String} {wait : Nat}
    (changed : (d.withOverride key wait).waitFor context payload ≠ d.waitFor context payload) :
    (∀ e ∈ d.overrides, ¬ SameContext e.1 context) ∧
      (SameContext key context ∨ Occurs key payload ∧ ∀ e ∈ d.overrides, ¬ Occurs e.1 payload) := by
  rw [waitFor, waitFor, withOverride, List.find?_append, List.find?_append] at changed
  cases named : d.overrides.find? (matchesContext context) with
  | some e =>
    rw [named] at changed
    exact absurd rfl changed
  | none =>
    refine ⟨find?_context.mp named, ?_⟩
    by_cases here : SameContext key context
    · exact .inl here
    · refine .inr ?_
      have passed : [(key, wait)].find? (matchesContext context) = none :=
        List.find?_cons_of_neg (fun fits => here (matchesContext_iff.mp fits))
      rw [named, passed] at changed
      cases marked : d.overrides.find? (matchesPayload payload) with
      | some e =>
        rw [marked] at changed
        exact absurd rfl changed
      | none =>
        refine ⟨?_, find?_payload.mp marked⟩
        by_contra absent
        have passed : [(key, wait)].find? (matchesPayload payload) = none :=
          List.find?_cons_of_neg (fun fits => absent (matchesPayload_iff.mp fits))
        rw [marked, passed] at changed
        exact absurd rfl changed

end Deadlines

/-! ### The overrides of a configuration -/

open Toml (Entries Section Value)

/-- An entry of a table as a custom timeout, if it counts something. -/
def counted? (e : String × Value) : Option (String × Nat) :=
  (e.1, ·) <$> e.2.count?

/-- What a value holds as the timeouts of calls: those in its table, in the order in which they stand there. -/
def timeoutsIn : Option Value → List (String × Nat)
  | some (.table _ t) => t.filterMap counted?
  | _ => []

/-- The custom timeouts in the section of the calls, which may be written as a table or as a list. -/
def callTimeouts : Value → List (String × Nat)
  | .table _ calls => timeoutsIn (Entries.get? calls "custom_timeouts")
  | .list fields => timeoutsIn fields[1]?
  | _ => []

/-- The custom timeouts of a text, in the order in which they are written. -/
def writtenTimeouts (text : String) : List (String × Nat) :=
  match Toml.parse? text with
  | some t => ((t.get? "soap").map callTimeouts).getD []
  | none => []

/-- Sorted by the bytes of their keys, none of which stands twice. -/
abbrev Ordered (timeouts : List (String × Nat)) : Prop :=
  timeouts.Pairwise fun a b => Utf8.bytes a.1 < Utf8.bytes b.1

theorem Ordered.eq_of_perm {one other : List (String × Nat)} (ordered : Ordered one) (ordered' : Ordered other)
    (same : one.Perm other) : one = other :=
  same.eq_of_pairwise (fun _ _ _ _ before behind => absurd before (List.lt_asymm behind)) ordered ordered'

theorem mapM_counted {t : Entries} {timeouts : List (String × Nat)}
    (read : t.mapM (fun (name, v) => do return (name, ← v.count?)) = some timeouts) :
    timeouts = t.filterMap counted? ∧ timeouts.map Prod.fst = t.map Prod.fst := by
  induction t generalizing timeouts with
  | nil =>
    obtain rfl := Option.some.inj read
    exact ⟨rfl, rfl⟩
  | cons e t ih =>
    rw [List.mapM_cons] at read
    obtain ⟨first, one, read⟩ := Option.bind_eq_some_iff.mp read
    obtain ⟨later, others, same⟩ := Option.bind_eq_some_iff.mp read
    obtain rfl := Option.some.inj same
    obtain ⟨n, count, same⟩ := Option.bind_eq_some_iff.mp one
    obtain rfl := Option.some.inj same
    obtain ⟨rfl, keys⟩ := ih others
    have kept : counted? e = some (e.1, n) := by
      rw [counted?, count]
      rfl
    rw [List.filterMap_cons_some kept, List.map_cons, List.map_cons, keys]
    exact ⟨rfl, rfl⟩

theorem customTimeouts?_spec {v : Value} {timeouts : List (String × Nat)} (keyed : v.Keyed)
    (read : customTimeouts? v = some timeouts) : Ordered timeouts ∧ timeouts.Perm (timeoutsIn (some v)) := by
  obtain ⟨t, table, counted⟩ := Option.bind_eq_some_iff.mp read
  obtain ⟨counts, each, same⟩ := Option.bind_eq_some_iff.mp counted
  obtain rfl := Option.some.inj same
  obtain ⟨rfl, keys⟩ := mapM_counted each
  have sorted := List.mergeSort_perm (t.filterMap counted?) fun a b => a.1 ≤ b.1
  cases v with
  | table opening t' =>
    obtain rfl := Option.some.inj table
    refine ⟨?_, sorted⟩
    have once := (Value.keyed_table.mp keyed).once
    rw [← keys, ← (sorted.map Prod.fst).nodup_iff, List.nodup_iff_pairwise_ne, List.pairwise_map] at once
    have order : ((t'.filterMap counted?).mergeSort fun a b => a.1 ≤ b.1).Pairwise fun a b => a.1 ≤ b.1 := by
      refine (List.pairwise_mergeSort ?_ ?_ _).imp of_decide_eq_true
      · intro a b c ab bc
        exact decide_eq_true (String.le_trans (of_decide_eq_true ab) (of_decide_eq_true bc))
      · intro a b
        simpa using String.le_total a.1 b.1
    refine (order.and once).imp fun ⟨le, ne⟩ => ?_
    exact Utf8.bytes_lt_iff.mpr (Std.lt_of_le_of_ne le ne)
  | _ => cases table

/-- The fields in the section of the calls, in their order. -/
def CallSettings.names : List String :=
  ["timeout_secs", "custom_timeouts", "hostname_verification", "call_endpoint", "call_timeout_secs", "proxy_path",
    "health_path", "listen"]

/-- Reading the section of the calls reads their timeout and their custom timeouts in it. -/
theorem CallSettings.ofValue?_spec {v : Value} {calls : CallSettings} (read : ofValue? v = some calls) :
    ∃ s, Section.ofValue? names v = some s ∧
      s.field "timeout_secs" Value.count? standard.timeout = some calls.timeout ∧
      s.field "custom_timeouts" customTimeouts? [] = some calls.customTimeouts := by
  obtain ⟨s, opened, read⟩ := Option.bind_eq_some_iff.mp read
  obtain ⟨timeout, first, read⟩ := Option.bind_eq_some_iff.mp read
  obtain ⟨timeouts, second, read⟩ := Option.bind_eq_some_iff.mp read
  obtain ⟨_, _, read⟩ := Option.bind_eq_some_iff.mp read
  obtain ⟨_, _, read⟩ := Option.bind_eq_some_iff.mp read
  obtain ⟨_, _, read⟩ := Option.bind_eq_some_iff.mp read
  obtain ⟨_, _, read⟩ := Option.bind_eq_some_iff.mp read
  obtain ⟨_, _, read⟩ := Option.bind_eq_some_iff.mp read
  obtain ⟨_, _, same⟩ := Option.bind_eq_some_iff.mp read
  obtain rfl := Option.some.inj same
  exact ⟨s, opened, first, second⟩

/-- The field of the custom timeouts, whether it is there or not. -/
theorem timeoutsIn_of_field {s : Section} {timeouts : List (String × Nat)}
    (keyed : ∀ v, s.get? "custom_timeouts" = some v → v.Keyed)
    (read : s.field "custom_timeouts" customTimeouts? [] = some timeouts) :
    Ordered timeouts ∧ timeouts.Perm (timeoutsIn (s.get? "custom_timeouts")) := by
  rw [Section.field] at read
  split at read
  · rename_i v there
    rw [there]
    exact customTimeouts?_spec (keyed v there) read
  · rename_i missing
    obtain rfl := Option.some.inj read
    rw [missing]
    exact ⟨.nil, .nil⟩

theorem CallSettings.customTimeouts_spec {v : Value} {calls : CallSettings} (keyed : v.Keyed)
    (read : ofValue? v = some calls) :
    Ordered calls.customTimeouts ∧ calls.customTimeouts.Perm (callTimeouts v) := by
  obtain ⟨s, opened, timeout, timeouts⟩ := ofValue?_spec read
  unfold Section.ofValue? at opened
  split at opened
  · rename_i opening t
    unfold Section.ofEntries? at opened
    split at opened
    · obtain rfl := Option.some.inj opened
      exact timeoutsIn_of_field (fun v there => (Value.keyed_table.mp keyed).get? there) timeouts
    · cases opened
  · rename_i fields
    obtain rfl := Option.some.inj opened
    have second : (Section.ofList names fields).get? "custom_timeouts" = fields[1]? := rfl
    rw [callTimeouts, ← second]
    refine timeoutsIn_of_field (fun v there => ?_) timeouts
    exact Value.keyed_list.mp keyed v (List.mem_of_getElem? there)
  · -- The first of repeated tables would be the timeout of all calls.
    rename_i earlier last
    obtain rfl := Option.some.inj opened
    cases earlier with
    | nil => cases timeout
    | cons first earlier => cases timeout
  · cases opened

/-- The section of the calls is read, or it is missing and they are as usual. -/
theorem Settings.ofEntries?_spec {t : Entries} {s : Settings} (read : ofEntries? t = some s) :
    (t.get? "soap" = none ∧ s.calls = .standard) ∨
      ∃ v, t.get? "soap" = some v ∧ CallSettings.ofValue? v = some s.calls := by
  obtain ⟨root, opened, read⟩ := Option.bind_eq_some_iff.mp read
  obtain ⟨calls, field, read⟩ := Option.bind_eq_some_iff.mp read
  obtain ⟨_, _, read⟩ := Option.bind_eq_some_iff.mp read
  obtain ⟨_, _, same⟩ := Option.bind_eq_some_iff.mp read
  obtain rfl := Option.some.inj same
  unfold Section.ofEntries? at opened
  split at opened
  · obtain rfl := Option.some.inj opened
    rw [Section.field] at field
    split at field
    · rename_i v there
      exact .inr ⟨v, there, field⟩
    · rename_i missing
      exact .inl ⟨missing, (Option.some.inj field).symm⟩
  · cases opened

/-- The custom timeouts of a configuration are those that are written, in the byte order of their keys. -/
theorem Settings.customTimeouts_spec {text : String} {s : Settings} (parsed : parse text = .ok s) :
    Ordered s.calls.customTimeouts ∧ s.calls.customTimeouts.Perm (writtenTimeouts text) := by
  unfold parse at parsed
  split at parsed
  · rename_i read
    obtain rfl := Except.ok.inj parsed
    obtain ⟨t, tables, read⟩ := Option.bind_eq_some_iff.mp read
    have keyed := Toml.keyed_parse? tables
    have written : writtenTimeouts text = ((t.get? "soap").map callTimeouts).getD [] := by
      rw [writtenTimeouts, tables]
    rcases ofEntries?_spec read with ⟨missing, standard⟩ | ⟨v, there, calls⟩
    · rw [written, missing, standard]
      exact ⟨.nil, .nil⟩
    · rw [written, there]
      exact CallSettings.customTimeouts_spec (keyed.get? there) calls
  · cases parsed

/-- The table of a configuration is built by adding one override after the other. -/
theorem Settings.deadlines_eq_foldl (s : Settings) : s.deadlines =
    s.calls.customTimeouts.foldl (fun d e => d.withOverride e.1 (e.2 * 1000)) ⟨s.calls.timeout * 1000, []⟩ := by
  have built : ∀ (timeouts : List (String × Nat)) (d : Deadlines),
      timeouts.foldl (fun d e => d.withOverride e.1 (e.2 * 1000)) d =
        ⟨d.default, d.overrides ++ timeouts.map fun e => (e.1, e.2 * 1000)⟩ := by
    intro timeouts
    induction timeouts with
    | nil =>
      intro d
      rw [List.map_nil, List.append_nil]
      rfl
    | cons e timeouts ih =>
      intro d
      rw [List.foldl_cons, ih, Deadlines.withOverride, List.append_assoc]
      rfl
  rw [built, List.nil_append]
  rfl

namespace Deadlines

/-- How the waiting time of a call is found. Slashes in front of its context do not count. An override whose key
names the context decides first, then one whose key occurs in the payload, and among those that fit the first.
An override that is added changes only what no other one decides. The overrides of a configuration are those
that are written, in the byte order of their keys, so the order in which they are written is of no account. -/
theorem overrides_decide_in_order :
    (∀ (d : Deadlines) (context payload : String),
      (∀ other, SameContext other context → d.waitFor other payload = d.waitFor context payload) ∧
      ((∃ e ∈ d.overrides, SameContext e.1 context) →
        First (SameContext · context) d.overrides (d.waitFor context payload) ∧
          ∀ other, d.waitFor context other = d.waitFor context payload) ∧
      ((∀ e ∈ d.overrides, ¬ SameContext e.1 context) →
        ((∃ e ∈ d.overrides, Occurs e.1 payload) →
          First (Occurs · payload) d.overrides (d.waitFor context payload)) ∧
        ((∀ e ∈ d.overrides, ¬ Occurs e.1 payload) → d.waitFor context payload = d.default)) ∧
      ∀ key wait, (d.withOverride key wait).waitFor context payload ≠ d.waitFor context payload →
        (∀ e ∈ d.overrides, ¬ SameContext e.1 context) ∧
          (SameContext key context ∨ Occurs key payload ∧ ∀ e ∈ d.overrides, ¬ Occurs e.1 payload)) ∧
    ∀ text s, Settings.parse text = .ok s →
      Ordered s.deadlines.overrides ∧
      s.deadlines.overrides.Perm ((writtenTimeouts text).map fun e => (e.1, e.2 * 1000)) ∧
      ∀ text' s', Settings.parse text' = .ok s' → s'.calls.timeout = s.calls.timeout →
        (writtenTimeouts text').Perm (writtenTimeouts text) → s'.deadlines = s.deadlines := by
  refine ⟨fun d context payload => ⟨fun _ => waitFor_congr, waitFor_of_named, waitFor_of_unnamed,
    fun _ _ => waitFor_withOverride⟩, fun text s parsed => ?_⟩
  obtain ⟨ordered, perm⟩ := Settings.customTimeouts_spec parsed
  refine ⟨List.pairwise_map.mpr ordered, perm.map _, fun text' s' parsed' default written => ?_⟩
  obtain ⟨ordered', perm'⟩ := Settings.customTimeouts_spec parsed'
  have same := ordered'.eq_of_perm ordered (perm'.trans (written.trans perm.symm))
  rw [Settings.deadlines, Settings.deadlines, default, same]

namespace Sample

def deadlines : Deadlines := ⟨45000, [("Set", 180000), ("/Status", 10000)]⟩

def forwards : String := "[soap.custom_timeouts]\na = 1\nb = 2\n"

def backwards : String := "[soap.custom_timeouts]\nb = 2\na = 1\n"

theorem parse_eq_ok (text : String) (h : (Settings.parse text).isOk) : ∃ s, Settings.parse text = .ok s := by
  cases read : Settings.parse text with
  | ok s => exact ⟨s, rfl⟩
  | error e =>
    rw [read] at h
    cases h

end Sample

open Sample in
theorem overrides_decide_in_order_of_samples :
    deadlines.waitFor "//Status" "<Set/>" = deadlines.waitFor "Status" "<Set/>" ∧
    First (SameContext · "Status") deadlines.overrides (deadlines.waitFor "Status" "<Set/>") ∧
    First (Occurs · "<Set/>") deadlines.overrides (deadlines.waitFor "Other" "<Set/>") ∧
    deadlines.waitFor "Other" "<Get/>" = deadlines.default ∧
    (SameContext "Get" "Other" ∨ Occurs "Get" "<Get/>" ∧ ∀ e ∈ deadlines.overrides, ¬ Occurs e.1 "<Get/>") ∧
    ∃ s s', Settings.parse forwards = .ok s ∧ Settings.parse backwards = .ok s' ∧
      Ordered s.deadlines.overrides ∧ s'.deadlines = s.deadlines := by
  obtain ⟨laws, texts⟩ := overrides_decide_in_order
  obtain ⟨s, parsed⟩ := parse_eq_ok forwards (by decide +kernel)
  obtain ⟨s', parsed'⟩ := parse_eq_ok backwards (by decide +kernel)
  have usual : ∀ {text s}, Settings.parse text = .ok s →
      (Settings.parse text).toOption.map (·.calls.timeout) = some 45 → s.calls.timeout = 45 := by
    intro text s parsed timeout
    rw [parsed] at timeout
    exact Option.some.inj timeout
  have default := (usual parsed' (by decide +kernel)).trans (usual parsed (by decide +kernel)).symm
  have written : (writtenTimeouts backwards).Perm (writtenTimeouts forwards) := by decide +kernel
  obtain ⟨ordered, _, free⟩ := texts _ s parsed
  refine ⟨?_, ?_, ?_, ?_, ?_, s, s', parsed, parsed', ordered, free _ s' parsed' default written⟩
  · exact (laws deadlines "Status" "<Set/>").1 "//Status" (by decide +kernel)
  · exact ((laws deadlines "Status" "<Set/>").2.1 (by decide +kernel)).1
  · exact ((laws deadlines "Other" "<Set/>").2.2.1 (by decide +kernel)).1 (by decide +kernel)
  · exact ((laws deadlines "Other" "<Get/>").2.2.1 (by decide +kernel)).2 (by decide +kernel)
  · exact ((laws deadlines "Other" "<Get/>").2.2.2 "Get" 1 (by decide +kernel)).2

end Deadlines

end SoapRelay

import Mathlib.Algebra.BigOperators.Intervals
import Mathlib.Algebra.Order.BigOperators.Group.Finset
import Mathlib.Algebra.Order.Field.Basic
import Mathlib.Data.List.GetD
import Mathlib.Tactic.NormNum
import Mathlib.Tactic.Positivity
import Mathlib.Tactic.Ring
import SoapRelay.Proofs.Watch

/-!
# How far the reported round trip lags behind the average

Each completed call moves the average and rounds it down, and what is rounded off is never made up for.
After `n` calls the reported number is at most the mean of their round trips, and less by up to half of
`n - 1` microseconds. That bound is reached, so the number need not be near the mean after many calls.
-/

namespace SoapRelay

namespace RegistryStats

/-- The counters after round trips of so many microseconds, one after the other. -/
def timed (xs : List Nat) : RegistryStats :=
  xs.foldl addRoundTrip zero

/-- What is reported after these round trips. -/
def reported (xs : List Nat) : Nat :=
  (timed xs).roundTrip.toNat

def mean (xs : List Nat) : ℚ :=
  xs.sum / xs.length

/-- What the division at the call of that number leaves over. -/
def leftOver (xs : List Nat) (k : Nat) : Nat :=
  (xs.getD k 0 + k * reported (xs.take k)) % (k + 1)

/-- What all divisions so far have left over. -/
def roundedOff (xs : List Nat) : Nat :=
  ∑ k ∈ Finset.range xs.length, leftOver xs k

/-! ### What one more round trip does -/

theorem timed_append (xs : List Nat) (x : Nat) : timed (xs ++ [x]) = (timed xs).addRoundTrip x := by
  rw [timed, List.foldl_append]
  rfl

theorem roundedOff_append (xs : List Nat) (x : Nat) :
    roundedOff (xs ++ [x]) = roundedOff xs + (x + xs.length * reported xs) % (xs.length + 1) := by
  have last : leftOver (xs ++ [x]) xs.length = (x + xs.length * reported xs) % (xs.length + 1) := by
    rw [leftOver, List.getD_append_right _ _ _ _ (Nat.le_refl _), Nat.sub_self, List.take_left]
    rfl
  have before : ∀ k ∈ Finset.range xs.length, leftOver (xs ++ [x]) k = leftOver xs k := by
    intro k member
    have inside := Finset.mem_range.mp member
    rw [leftOver, List.getD_append _ _ _ _ inside, List.take_append_of_le_length (Nat.le_of_lt inside)]
    rfl
  rw [roundedOff, List.length_append, List.length_singleton, Finset.sum_range_succ, last,
    Finset.sum_congr rfl before]
  rfl

/-- The division at each call leaves over at most as much as there were calls before it. -/
theorem roundedOff_le (xs : List Nat) : 2 * roundedOff xs ≤ xs.length * (xs.length - 1) := by
  have each : roundedOff xs ≤ ∑ k ∈ Finset.range xs.length, k :=
    Finset.sum_le_sum fun k _ => Nat.le_of_lt_succ (Nat.mod_lt _ (Nat.succ_pos k))
  have all := Finset.sum_range_id_mul_two xs.length
  omega

theorem samples_timed {xs : List Nat} (length : xs.length < 2 ^ 64) : (timed xs).samples.toNat = xs.length := by
  induction xs using List.reverseRecOn with
  | nil => rfl
  | append_singleton xs x ih =>
    rw [List.length_append, List.length_singleton] at length ⊢
    rw [timed_append]
    show ((timed xs).samples + 1).toNat = _
    rw [UInt64.toNat_add, ih (by omega)]
    exact Nat.mod_eq_of_lt length

theorem average_eq {n a x : Nat} (fits : x + n * a < 2 ^ 64) : average n a x = (x + n * a) / (n + 1) := by
  have product : n * a ≤ largest := by
    unfold largest
    omega
  have sum : x + n * a ≤ largest := by
    unfold largest
    omega
  rw [average, Nat.min_eq_right product, Nat.min_eq_right sum]

theorem reported_append {xs : List Nat} {x : Nat} (length : xs.length < 2 ^ 64)
    (fits : x + xs.length * reported xs < 2 ^ 64) :
    reported (xs ++ [x]) = (x + xs.length * reported xs) / (xs.length + 1) := by
  have micros : (UInt64.ofNat x).toNat = x := UInt64.toNat_ofNat_of_lt' (Nat.lt_of_le_of_lt (Nat.le_add_right _ _) fits)
  rw [reported, timed_append]
  show (UInt64.ofNat (average (timed xs).samples.toNat (reported xs) (UInt64.ofNat x).toNat)).toNat = _
  rw [micros, samples_timed length, average_eq fits]
  exact UInt64.toNat_ofNat_of_lt' (Nat.lt_of_le_of_lt (Nat.div_le_self _ _) fits)

/-- Nothing is lost but what the divisions leave over. -/
theorem sum_eq {xs : List Nat} (length : xs.length < 2 ^ 64) (sum : xs.sum < 2 ^ 64) :
    xs.sum = xs.length * reported xs + roundedOff xs := by
  induction xs using List.reverseRecOn with
  | nil => rfl
  | append_singleton xs x ih =>
    rw [List.length_append, List.length_singleton] at length ⊢
    rw [List.sum_append, List.sum_singleton] at sum ⊢
    have balance := ih (by omega) (by omega)
    have fits : x + xs.length * reported xs < 2 ^ 64 := by omega
    have division := Nat.div_add_mod (x + xs.length * reported xs) (xs.length + 1)
    rw [roundedOff_append, reported_append (by omega) fits]
    omega

/-- The reported number is below the mean by what was rounded off in all, shared among the calls. -/
theorem mean_sub_reported {xs : List Nat} (some : xs ≠ []) (length : xs.length < 2 ^ 64) (sum : xs.sum < 2 ^ 64) :
    mean xs - reported xs = roundedOff xs / xs.length := by
  have positive : (xs.length : ℚ) ≠ 0 := Nat.cast_ne_zero.mpr (List.length_pos_iff.mpr some).ne'
  have balance : (xs.sum : ℚ) = xs.length * reported xs + roundedOff xs := by exact_mod_cast sum_eq length sum
  rw [mean, balance, add_div, mul_div_cancel_left₀ _ positive, add_sub_cancel_left]

/-- It is less than a microsecond below exactly if less was rounded off than there were calls. -/
theorem abs_reported_sub_mean_lt_one {xs : List Nat} (some : xs ≠ []) (length : xs.length < 2 ^ 64)
    (sum : xs.sum < 2 ^ 64) : |(reported xs : ℚ) - mean xs| < 1 ↔ roundedOff xs < xs.length := by
  have positive : (0 : ℚ) < xs.length := Nat.cast_pos.mpr (List.length_pos_iff.mpr some)
  have below : (0 : ℚ) ≤ roundedOff xs / xs.length := div_nonneg (Nat.cast_nonneg _) (Nat.cast_nonneg _)
  rw [abs_sub_comm, mean_sub_reported some length sum, abs_of_nonneg below, div_lt_one positive, Nat.cast_lt]

/-! ### Lagging as far as that -/

theorem timed_range (n : Nat) :
    (timed (List.range n)).roundTrip = 0 ∧ (timed (List.range n)).samples = UInt64.ofNat n := by
  induction n with
  | zero => exact ⟨rfl, rfl⟩
  | succ n ih =>
    obtain ⟨roundTrip, samples⟩ := ih
    rw [List.range_succ, timed_append]
    generalize timed (List.range n) = s at roundTrip samples
    have quotient : average (UInt64.ofNat n).toNat 0 (UInt64.ofNat n).toNat = 0 := by
      rw [average, Nat.mul_zero, Nat.min_zero, Nat.add_zero]
      exact Nat.div_eq_of_lt (Nat.lt_succ_of_le (Nat.min_le_right _ _))
    constructor
    · show UInt64.ofNat (average s.samples.toNat s.roundTrip.toNat (UInt64.ofNat n).toNat) = 0
      rw [roundTrip, samples]
      exact congrArg UInt64.ofNat quotient
    · show s.samples + 1 = _
      rw [samples, UInt64.ofNat_add]
      rfl

theorem sum_range_mul_two (n : Nat) : (List.range (n + 1)).sum * 2 = (n + 1) * n := by
  induction n with
  | zero => rfl
  | succ n ih =>
    rw [List.range_succ, List.sum_append, List.sum_singleton, Nat.add_mul, ih]
    ring

/-- Calls that take one microsecond more each time are reported as taking no time at all. -/
theorem mean_sub_reported_range (n : Nat) :
    mean (List.range (n + 1)) - reported (List.range (n + 1)) = (n : ℚ) / 2 := by
  have none : reported (List.range (n + 1)) = 0 := congrArg UInt64.toNat (timed_range (n + 1)).1
  have twice : ((List.range (n + 1)).sum : ℚ) * 2 = (n + 1) * n := by exact_mod_cast sum_range_mul_two n
  have positive : (n : ℚ) + 1 ≠ 0 := by positivity
  rw [none, mean, List.length_range, Nat.cast_zero, sub_zero, Nat.cast_add, Nat.cast_one,
    div_eq_div_iff positive two_ne_zero, twice]
  ring

/-! ### Counters that time the same -/

/-- What the average of further round trips depends on. -/
def timing (s : RegistryStats) : UInt64 × UInt64 :=
  (s.roundTrip, s.samples)

theorem timing_addRoundTrip {s t : RegistryStats} (same : s.timing = t.timing) (x : Nat) :
    (s.addRoundTrip x).timing = (t.addRoundTrip x).timing := by
  obtain ⟨roundTrip, samples⟩ := Prod.mk.inj same
  unfold timing addRoundTrip
  rw [roundTrip, samples]

theorem timing_foldl {s t : RegistryStats} (same : s.timing = t.timing) (xs : List Nat) :
    (xs.foldl addRoundTrip s).timing = (xs.foldl addRoundTrip t).timing := by
  induction xs generalizing s t with
  | nil => exact same
  | cons x xs ih => exact ih (timing_addRoundTrip same x)

end RegistryStats

namespace Hall

open Registry RegistryStats

variable {x : Hall} {op : Op} {ops : List Op}

/-! ### The round trips of a run -/

/-- How long the call took that a reply completes, in microseconds. -/
def Event.roundTrip? (e : Event) : Option Nat :=
  match e.op with
  | .resolve id _ => (e.before.registry.find? id).map fun p => 1000 * (e.before.now - p.created)
  | _ => none

/-- How long the completed calls of a run took, in the order in which they were completed. -/
def roundTrips (events : List Event) : List Nat :=
  events.filterMap Event.roundTrip?

theorem step_timing (x : Hall) (op : Op) :
    (x.step op).2.registry.stats.timing =
      ((x.event op).roundTrip?.toList.foldl addRoundTrip x.registry.stats).timing := by
  cases op with
  | resolve id reply =>
    have acts : (x.step (.resolve id reply)).2.registry = (x.registry.resolve x.now id reply).2 := rfl
    have trip : (x.event (.resolve id reply)).roundTrip? =
      (x.registry.find? id).map fun p => 1000 * (x.now - p.created) := rfl
    rw [acts, stats_resolve, trip]
    cases x.registry.find? id with
    | none => rfl
    | some p => rfl
  | register h deadline =>
    rcases register_acts x h deadline with ⟨_, same⟩ | ⟨acts, _⟩
    · have same : (x.step (.register h deadline)).2 = x := same
      rw [same]
      rfl
    · have acts : (x.step (.register h deadline)).2.registry = (x.registry.register x.now h.id deadline).2 := acts
      rw [acts, stats_register]
      split
      · rfl
      · rfl
  | wait h until? =>
    have same : (x.step (.wait h until?)).2.registry = x.registry := wait_acts x h until?
    rw [same]
    rfl
  | look h =>
    rcases look_acts x h with same | ⟨t, until_, acts⟩
    · have same : (x.step (.look h)).2.registry = x.registry := same
      rw [same]
      rfl
    · have acts : (x.step (.look h)).2.registry = (x.registry.await t until_ x.now).2 := acts
      rw [acts, stats_await]
      split
      · rfl
      · rfl
  | drop h =>
    rcases drop_acts x h with same | ⟨t, acts⟩
    · have same : (x.step (.drop h)).2.registry = x.registry := same
      rw [same]
      rfl
    · have acts : (x.step (.drop h)).2.registry = x.registry.release t := acts
      rw [acts, stats_release]
      split
      · rfl
      · rfl
  | cancel id =>
    have acts : (x.step (.cancel id)).2.registry = (x.registry.cancel id).2 := rfl
    rw [acts, stats_cancel]
    split
    · rfl
    · rfl
  | sweep => rfl
  | pass time => rfl

theorem after_timing (x : Hall) (ops : List Op) :
    (x.after ops).registry.stats.timing =
      ((roundTrips (x.events ops)).foldl addRoundTrip x.registry.stats).timing := by
  induction ops generalizing x with
  | nil => rfl
  | cons op ops ih =>
    have first : roundTrips (x.events (op :: ops)) =
        (x.event op).roundTrip?.toList ++ roundTrips ((x.step op).2.events ops) := by
      rw [events, roundTrips, List.filterMap_cons]
      cases (x.event op).roundTrip? with
      | none => rfl
      | some y => rfl
    rw [first, List.foldl_append]
    exact (ih (x.step op).2).trans (timing_foldl (step_timing x op) _)

/-- A reply completes a call that was registered in the run, and it took from there to here. -/
theorem roundTrip_measures {shards : Nat} {hash : String → UInt64} {e : Event} {micros : Nat}
    (member : e ∈ (start shards hash).events ops) (took : e.roundTrip? = some micros) :
    ∃ t, ∃ c ∈ (start shards hash).events ops,
      c.Starts t ∧ e.Ends t ∧ micros = 1000 * (e.before.now - c.before.now) := by
  obtain ⟨past, op, rest, rfl, rfl⟩ := exists_of_mem_events member
  have sound := after_sound (start_sound shards hash) past
  cases op with
  | resolve id text =>
    obtain ⟨p, found, rfl⟩ := Option.map_eq_some_iff.mp took
    have pending := (find?_eq_some_iff sound.valid.toShaped).mp found
    obtain ⟨c, earlier, starts, created⟩ := registered_of_pending shards hash past pending
    refine ⟨_, c, ?_, starts, (ends_iff sound).mpr ⟨⟨p, pending, rfl⟩, ?_⟩, ?_⟩
    · rw [events_append]
      exact List.mem_append_left _ earlier
    · rintro ⟨q, stays, _⟩
      rcases resolve_cases sound.valid.toShaped ((start shards hash).after past).now id text with
        ⟨_, _, _, sheds⟩ | ⟨absent, _, _⟩
      · have kept := (sheds.mem_entries.mp stays).2
        simp at kept
      · exact absent p pending
    · rw [created]
  | register h deadline => cases took
  | wait h until? => cases took
  | look h => cases took
  | drop h => cases took
  | cancel id => cases took
  | sweep => cases took
  | pass time => cases took

theorem roundTrip?_isSome (x : Hall) (op : Op) : (x.event op).roundTrip?.isSome = (x.event op).resolves true := by
  cases op with
  | resolve id text =>
    have trip : (x.event (.resolve id text)).roundTrip? =
      (x.registry.find? id).map fun p => 1000 * (x.now - p.created) := rfl
    have resolves : (x.event (.resolve id text)).resolves true = ((x.registry.resolve x.now id text).1 == true) := rfl
    rw [trip, resolves, resolve]
    cases x.registry.find? id with
    | none => rfl
    | some p => rfl
  | register h deadline => rfl
  | wait h until? => rfl
  | look h => rfl
  | drop h => rfl
  | cancel id => rfl
  | sweep => rfl
  | pass time => rfl

theorem length_roundTrips (x : Hall) (ops : List Op) :
    (roundTrips (x.events ops)).length = (x.events ops).countP (Event.resolves true) := by
  rw [roundTrips, List.length_filterMap_eq_countP]
  apply List.countP_congr
  intro e member
  obtain ⟨past, op, rest, _, rfl⟩ := exists_of_mem_events member
  rw [roundTrip?_isSome]

/-- In every run the reported round trip is the one that the round trips of its completed calls, each from
the registration to the reply, make one after the other. It is below their mean by what the divisions left
over in all, shared among the calls, so it is near the mean exactly if that is less than one for each call. -/
theorem reported_round_trip_lags (shards : Nat) (hash : String → UInt64) (ops : List Op) :
    let stats := ((start shards hash).after ops).registry.stats
    let events := (start shards hash).events ops
    let xs := roundTrips events
    stats.completed = UInt64.ofNat xs.length ∧
      (∀ e ∈ events, ∀ micros, e.roundTrip? = some micros →
        ∃ t, ∃ c ∈ events, c.Starts t ∧ e.Ends t ∧ micros = 1000 * (e.before.now - c.before.now)) ∧
      stats.roundTrip.toNat = reported xs ∧
      (xs ≠ [] → xs.length < 2 ^ 64 → xs.sum < 2 ^ 64 →
        mean xs - stats.roundTrip.toNat = roundedOff xs / xs.length ∧
          (|(stats.roundTrip.toNat : ℚ) - mean xs| < 1 ↔ roundedOff xs < xs.length)) ∧
      2 * roundedOff xs ≤ xs.length * (xs.length - 1) := by
  intro stats events xs
  have same : stats.roundTrip.toNat = reported xs :=
    congrArg (fun timing => timing.1.toNat) (after_timing (start shards hash) ops)
  have completed := (after_counts (start shards hash) ops).completed
  rw [tally, ← length_roundTrips] at completed
  refine ⟨completed.trans (UInt64.zero_add _), fun e member micros => roundTrip_measures member, same, ?_,
    roundedOff_le xs⟩
  intro some length sum
  rw [same]
  exact ⟨mean_sub_reported some length sum, abs_reported_sub_mean_lt_one some length sum⟩

/-- A call that takes a millisecond, and three that are answered at once. -/
def slowFirst : List Op :=
  [.register ⟨again, 1⟩ 9, .pass 1, .resolve "again" "one", .register ⟨again, 2⟩ 9, .resolve "again" "two",
    .register ⟨again, 3⟩ 9, .resolve "again" "three", .register ⟨again, 4⟩ 9, .resolve "again" "four"]

theorem roundTrips_slowFirst : roundTrips ((start 1 mix).events slowFirst) = [1000, 0, 0, 0] := by
  decide +kernel

theorem reported_round_trip_lags_after_slow_first :
    ((start 1 mix).after slowFirst).registry.stats.roundTrip.toNat = 249 ∧ roundedOff [1000, 0, 0, 0] = 4 ∧
      mean [1000, 0, 0, 0] - 249 = 4 / 4 ∧ ¬ |(249 : ℚ) - mean [1000, 0, 0, 0]| < 1 := by
  obtain ⟨_, _, same, lags, _⟩ := reported_round_trip_lags 1 mix slowFirst
  have reports : reported [1000, 0, 0, 0] = 249 := by decide +kernel
  have lost : roundedOff [1000, 0, 0, 0] = 4 := by decide +kernel
  rw [roundTrips_slowFirst] at same lags
  obtain ⟨gap, near⟩ := lags (by decide) (by decide) (by decide)
  rw [same, reports] at gap near
  rw [lost] at gap near
  exact ⟨same.trans reports, lost, gap, near.not.mpr (by decide)⟩

/-- The reported number is a whole microsecond below the mean here. -/
theorem reported_round_trip_off_by_one :
    ¬∀ (shards : Nat) (hash : String → UInt64) (ops : List Op),
      let xs := roundTrips ((start shards hash).events ops)
      xs ≠ [] → xs.sum < 2 ^ 64 →
        |(((start shards hash).after ops).registry.stats.roundTrip.toNat : ℚ) - mean xs| < 1 := by
  intro near
  have near := near 1 mix slowFirst
  have reports : ((start 1 mix).after slowFirst).registry.stats.roundTrip.toNat = 249 := by decide +kernel
  dsimp only at near
  rw [roundTrips_slowFirst, reports] at near
  have near := near (by decide) (by decide)
  norm_num [mean] at near

end Hall

end SoapRelay

import SoapRelay.Proofs.Delivery

/-!
# A backoff that is polled at any instants

However often it is polled, early or late, a backoff hands out its delay at the first poll that comes a
whole delay after the poll that opened the wait: the first one of all, or the first after a delay was handed
out. The polls in between leave the end of the wait where it is. Once the limit is reached nothing runs.
-/

namespace SoapRelay.Backoff

/-- The backoff as the poll of that number finds it, counted from zero. -/
def before (b : Backoff) (polls : Nat → Nat) : Nat → Backoff
  | 0 => b
  | n + 1 => ((before b polls n).poll (polls n)).2

/-- What the poll of that number is answered. -/
def answer (b : Backoff) (polls : Nat → Nat) (n : Nat) : Poll :=
  ((b.before polls n).poll (polls n)).1

/-- How many delays the polls before that one were handed. -/
def handedOut (b : Backoff) (polls : Nat → Nat) (n : Nat) : Nat :=
  (List.range n).countP fun m => b.answer polls m = .delay b.delay

/-- The first poll after so many delays were handed out. -/
structure Opens (b : Backoff) (polls : Nat → Nat) (k i : Nat) : Prop where
  handed : b.handedOut polls i = k
  first : ∀ m < i, b.handedOut polls m < k

variable {b : Backoff} {polls : Nat → Nat} {now k i n : Nat}

theorem poll_delay (b : Backoff) (now : Nat) : (b.poll now).2.delay = b.delay := by
  unfold poll
  split
  · rfl
  · dsimp only
    split
    · rfl
    · rfl

theorem poll_limit (b : Backoff) (now : Nat) : (b.poll now).2.limit = b.limit := by
  unfold poll
  split
  · rfl
  · dsimp only
    split
    · rfl
    · rfl

theorem before_delay (b : Backoff) (polls : Nat → Nat) (n : Nat) : (b.before polls n).delay = b.delay := by
  induction n with
  | zero => rfl
  | succ n ih => exact (poll_delay _ _).trans ih

theorem before_limit (b : Backoff) (polls : Nat → Nat) (n : Nat) : (b.before polls n).limit = b.limit := by
  induction n with
  | zero => rfl
  | succ n ih => exact (poll_limit _ _).trans ih

theorem handedOut_of_delay (told : b.answer polls n = .delay b.delay) :
    b.handedOut polls (n + 1) = b.handedOut polls n + 1 := by
  simp [handedOut, List.range_succ, told]

theorem handedOut_of_other (told : b.answer polls n ≠ .delay b.delay) :
    b.handedOut polls (n + 1) = b.handedOut polls n := by
  simp [handedOut, List.range_succ, told]

theorem handedOut_le {m : Nat} (le : m ≤ n) : b.handedOut polls m ≤ b.handedOut polls n :=
  List.Sublist.countP_le (List.range_sublist.mpr le)

theorem Opens.unique {j : Nat} (opens : b.Opens polls k i) (other : b.Opens polls k j) : i = j := by
  rcases Nat.lt_trichotomy i j with earlier | same | later
  · exact absurd opens.handed (Nat.ne_of_lt (other.first i earlier))
  · exact same
  · exact absurd other.handed (Nat.ne_of_lt (opens.first j later))

/-! ### What each poll finds -/

/-- A backoff as the poll of that number finds it. The wait that is under way, or that this poll opens, ends a
delay after the poll that opened it. -/
structure Stands (b : Backoff) (polls : Nat → Nat) (n : Nat) : Prop where
  given : (b.before polls n).given = b.handedOut polls n
  bounded : b.handedOut polls n ≤ b.limit
  idle : b.handedOut polls n = b.limit → (b.before polls n).readyAt? = none
  waits : b.handedOut polls n < b.limit → ∃ i ≤ n, b.Opens polls (b.handedOut polls n) i ∧
    (b.before polls n).readyAt?.getD (polls n + b.delay) = polls i + b.delay

theorem Stands.finished (stands : b.Stands polls n) (done : b.handedOut polls n = b.limit) :
    (b.before polls n).poll (polls n) = (.finished, b.before polls n) := by
  have spent : (b.before polls n).limit = (b.before polls n).given := by rw [before_limit, stands.given, done]
  exact poll_finished (Nat.le_of_eq spent)

/-- While delays are left, a poll is handed the delay if the wait is over, and told its end if not. -/
theorem Stands.running (stands : b.Stands polls n) (left : b.handedOut polls n < b.limit) :
    ∃ i ≤ n, b.Opens polls (b.handedOut polls n) i ∧
      (b.before polls n).poll (polls n) =
        if polls i + b.delay ≤ polls n then
          (.delay b.delay, { b.before polls n with given := b.handedOut polls n + 1, readyAt? := none })
        else (.pending (polls i + b.delay), { b.before polls n with readyAt? := some (polls i + b.delay) }) := by
  obtain ⟨i, earlier, opens, ready⟩ := stands.waits left
  have more : (b.before polls n).given < (b.before polls n).limit := by rwa [stands.given, before_limit]
  rw [← before_delay b polls n] at ready
  refine ⟨i, earlier, opens, ?_⟩
  rw [← before_delay b polls n]
  split
  · rename_i due
    rw [poll_due more (ready ▸ due), stands.given]
  · rename_i early
    rw [poll_early more (ready ▸ Nat.lt_of_not_le early), ready]

theorem Stands.next (stands : b.Stands polls n) : b.Stands polls (n + 1) := by
  have after : b.before polls (n + 1) = ((b.before polls n).poll (polls n)).2 := rfl
  have told : b.answer polls n = ((b.before polls n).poll (polls n)).1 := rfl
  rcases Nat.lt_or_eq_of_le stands.bounded with left | done
  · obtain ⟨i, earlier, opens, polled⟩ := stands.running left
    by_cases due : polls i + b.delay ≤ polls n
    · rw [polled, if_pos due] at after told
      have handed := handedOut_of_delay told
      have opens : b.Opens polls (b.handedOut polls (n + 1)) (n + 1) := by
        refine ⟨rfl, fun m before => ?_⟩
        have le : b.handedOut polls m ≤ b.handedOut polls n := handedOut_le (Nat.le_of_lt_succ before)
        omega
      refine ⟨?_, ?_, fun _ => ?_, fun _ => ⟨n + 1, Nat.le_refl _, opens, ?_⟩⟩
      · rw [after, handed]
      · omega
      · rw [after]
      · rw [after]
        rfl
    · rw [polled, if_neg due] at after told
      have handed : b.handedOut polls (n + 1) = b.handedOut polls n := handedOut_of_other (told ▸ nofun)
      rw [← handed] at opens
      refine ⟨?_, ?_, ?_, fun _ => ⟨i, Nat.le_succ_of_le earlier, opens, ?_⟩⟩
      · rw [after, handed]
        exact stands.given
      · omega
      · omega
      · rw [after]
        rfl
  · rw [stands.finished done] at after told
    have handed : b.handedOut polls (n + 1) = b.handedOut polls n := handedOut_of_other (told ▸ nofun)
    refine ⟨?_, ?_, fun _ => ?_, ?_⟩
    · rw [after, handed]
      exact stands.given
    · omega
    · rw [after]
      exact stands.idle done
    · omega

theorem create_stands (delay limit : Nat) (polls : Nat → Nat) (n : Nat) : (create delay limit).Stands polls n := by
  induction n with
  | zero =>
    have opens : (create delay limit).Opens polls 0 0 := ⟨rfl, nofun⟩
    exact ⟨rfl, Nat.zero_le _, fun _ => rfl, fun _ => ⟨0, Nat.le_refl _, opens, rfl⟩⟩
  | succ n ih => exact ih.next

/-! ### One wait -/

/-- What a poll is answered while the wait opened by `i` has not ended before it. -/
theorem Stands.answers (stands : b.Stands polls n) (left : k < b.limit) (opens : b.Opens polls k i)
    (handed : b.handedOut polls n = k) : b.answer polls n =
      if polls i + b.delay ≤ polls n then .delay b.delay else .pending (polls i + b.delay) := by
  subst handed
  obtain ⟨j, _, other, polled⟩ := stands.running left
  obtain rfl := opens.unique other
  rw [answer, polled]
  split
  · rfl
  · rfl

/-- Nothing is handed out before the wait is over. -/
theorem handedOut_of_early (stands : ∀ n, b.Stands polls n) (left : k < b.limit) (opens : b.Opens polls k i)
    (since : i ≤ n) (early : ∀ m, i ≤ m → m < n → polls m < polls i + b.delay) : b.handedOut polls n = k := by
  induction since with
  | refl => exact opens.handed
  | step since ih =>
    rename_i n
    have handed := ih fun m from_ before => early m from_ (Nat.lt_succ_of_lt before)
    have told := (stands n).answers left opens handed
    rw [if_neg (Nat.not_le_of_lt (early n since (Nat.lt_succ_self n)))] at told
    rw [handedOut_of_other (told ▸ nofun)]
    exact handed

/-- Each delay is handed out at the first poll that comes at least so long after the poll that opened its wait;
the polls until then are told when that is. After the last one every poll is told that there are no more, and
nothing is left running. What has not been handed out remains. A policy of so many attempts starts with one
delay less. -/
theorem delays_are_kept (delay limit : Nat) (polls : Nat → Nat) :
    let b := create delay limit
    (∀ k < limit, ∀ i, b.Opens polls k i → ∀ n, i ≤ n → (∀ m, i ≤ m → m < n → polls m < polls i + delay) →
      b.handedOut polls n = k ∧
        b.answer polls n = if polls i + delay ≤ polls n then .delay delay else .pending (polls i + delay)) ∧
      (∀ n, b.handedOut polls n < limit → ∃ i ≤ n, b.Opens polls (b.handedOut polls n) i) ∧
      (∀ n, b.handedOut polls n = limit →
        b.answer polls n = .finished ∧ b.before polls (n + 1) = b.before polls n ∧
          (b.before polls n).readyAt? = none) ∧
      (∀ n, (b.before polls n).given ≤ limit ∧ (b.before polls n).remaining + b.handedOut polls n = limit) ∧
      ∀ p : RetryPolicy, p.start = create p.backoff p.start.limit ∧ p.start.limit + 1 = max 1 p.attempts := by
  have stands := create_stands delay limit polls
  refine ⟨?_, ?_, ?_, ?_, ?_⟩
  · intro k left i opens n since early
    have handed := handedOut_of_early stands left opens since early
    exact ⟨handed, (stands n).answers left opens handed⟩
  · intro n left
    obtain ⟨i, earlier, opens, _⟩ := (stands n).waits left
    exact ⟨i, earlier, opens⟩
  · intro n done
    have polled := (stands n).finished done
    exact ⟨congrArg Prod.fst polled, congrArg Prod.snd polled, (stands n).idle done⟩
  · intro n
    have bounded := (stands n).bounded
    rw [remaining, before_limit, (stands n).given]
    exact ⟨bounded, Nat.sub_add_cancel bounded⟩
  · intro p
    refine ⟨rfl, ?_⟩
    show p.attempts - 1 + 1 = max 1 p.attempts
    omega

/-- Polls every other instant against a delay of three: early, late, and after the end. -/
theorem delays_are_kept_of_late_polls :
    let b := create 3 2
    let polls := fun n => 2 * n
    b.answer polls 2 = .delay 3 ∧ b.Opens polls 1 3 ∧ b.answer polls 4 = .pending 9 ∧ b.answer polls 5 = .delay 3 ∧
      b.answer polls 6 = .finished ∧ (b.before polls 6).readyAt? = none ∧ (b.before polls 5).remaining = 1 := by
  obtain ⟨each, _, ended, remains, _⟩ := delays_are_kept 3 2 fun n => 2 * n
  have first : (create 3 2).Opens (fun n => 2 * n) 0 0 := ⟨rfl, nofun⟩
  have second : (create 3 2).Opens (fun n => 2 * n) 1 3 := ⟨by decide, by decide⟩
  have done : (create 3 2).handedOut (fun n => 2 * n) 6 = 2 := by decide
  have one := (each 0 (by decide) 0 first 2 (by decide) (by omega)).2
  have waits := (each 1 (by decide) 3 second 4 (by decide) (by omega)).2
  have two := each 1 (by decide) 3 second 5 (by decide) (by omega)
  have remains := (remains 5).2
  rw [two.1] at remains
  exact ⟨one, second, waits, two.2, (ended 6 done).1, (ended 6 done).2.2, Nat.succ.inj remains⟩

end SoapRelay.Backoff

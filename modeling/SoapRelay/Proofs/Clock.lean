import SoapRelay.Clock

/-!
# Time that goes from timer to timer

What every wake keeps, and what stays while no timer is due, holds at the limit that time goes to.
-/

namespace SoapRelay.Clock

theorem foldl_earliest {times : List Nat} {best : Option Nat} {t : Nat}
    (found : times.foldl (fun best t => some (match best with | some b => min b t | none => t)) best = some t) :
    (t ∈ times ∨ best = some t) ∧ (∀ u ∈ times, t ≤ u) ∧ ∀ b, best = some b → t ≤ b := by
  induction times generalizing best with
  | nil =>
    obtain rfl : best = some t := found
    refine ⟨Or.inr rfl, nofun, ?_⟩
    intro b same
    obtain rfl := Option.some.inj same
    exact Nat.le_refl _
  | cons u rest ih =>
    obtain ⟨member, least, below⟩ := ih found
    cases best with
    | none =>
      have first := below u rfl
      refine ⟨?_, ?_, nofun⟩
      · rcases member with later | same
        · exact Or.inl (List.mem_cons_of_mem u later)
        · obtain rfl := Option.some.inj same
          exact Or.inl (List.mem_cons_self ..)
      · intro v inside
        rcases List.mem_cons.mp inside with rfl | later
        · exact first
        · exact least v later
    | some b =>
      have first : t ≤ min b u := below _ rfl
      refine ⟨?_, ?_, ?_⟩
      · rcases member with later | same
        · exact Or.inl (List.mem_cons_of_mem u later)
        · have either : t = b ∨ t = u := by
            have least : min b u = t := Option.some.inj same
            omega
          rcases either with rfl | rfl
          · exact Or.inr rfl
          · exact Or.inl (List.mem_cons_self ..)
      · intro v inside
        rcases List.mem_cons.mp inside with rfl | later
        · omega
        · exact least v later
      · intro c same
        obtain rfl := Option.some.inj same
        omega

theorem mem_of_earliest {times : List Nat} {t : Nat} (found : earliest times = some t) : t ∈ times := by
  rcases (foldl_earliest found).1 with member | none
  · exact member
  · cases none

theorem earliest_le {times : List Nat} {t u : Nat} (found : earliest times = some t) (member : u ∈ times) : t ≤ u :=
  (foldl_earliest found).2.1 u member

theorem earliest_isSome {times : List Nat} (nonempty : times ≠ []) : (earliest times).isSome := by
  have kept : ∀ (times : List Nat) (best : Option Nat), best.isSome →
      (times.foldl (fun best t => some (match best with | some b => min b t | none => t)) best).isSome := by
    intro times
    induction times with
    | nil => exact fun _ some => some
    | cons t rest ih => exact fun _ _ => ih _ rfl
  cases times with
  | nil => exact absurd rfl nonempty
  | cons t rest => exact kept rest _ rfl

theorem exists_earliest_le {times : List Nat} {u : Nat} (member : u ∈ times) :
    ∃ t, earliest times = some t ∧ t ≤ u := by
  obtain ⟨t, found⟩ := Option.isSome_iff_exists.mp (earliest_isSome (List.ne_nil_of_mem member))
  exact ⟨t, found, earliest_le found member⟩

section

variable {σ : Type} {nextWake : σ → Option Nat} {wake : Nat → σ → σ} {limit now t : Nat} {s : σ}

theorem pass_next (found : nextWake s = some t) (within : now < t ∧ t ≤ limit) :
    pass nextWake wake limit now s = pass nextWake wake limit t (wake t s) := by
  rw [pass, found]
  exact if_pos within

theorem pass_idle (idle : ∀ t, nextWake s = some t → ¬(now < t ∧ t ≤ limit)) :
    pass nextWake wake limit now s = s := by
  rw [pass]
  split
  · rfl
  · rename_i t found
    exact if_neg (idle t found)

end

theorem pass_keeps {σ : Type} {nextWake : σ → Option Nat} {wake : Nat → σ → σ} (holds : Nat → σ → Prop)
    (live : ∀ now s t, holds now s → nextWake s = some t → now < t)
    (wakes : ∀ now s t, holds now s → nextWake s = some t → holds t (wake t s))
    (idle : ∀ now s time, holds now s → now ≤ time → (∀ t, nextWake s = some t → time < t) → holds time s)
    {limit now : Nat} {s : σ} (here : holds now s) (early : now ≤ limit) :
    holds limit (pass nextWake wake limit now s) := by
  fun_induction pass nextWake wake limit now s with
  | case1 now s none =>
    refine idle now s limit here early ?_
    intro t found
    rw [none] at found
    cases found
  | case2 now s t found within ih => exact ih (wakes now s t here found) within.2
  | case3 now s t found beyond =>
    refine idle now s limit here early ?_
    intro u same
    obtain rfl := Option.some.inj (found.symm.trans same)
    have after := live now s t here found
    omega

end SoapRelay.Clock

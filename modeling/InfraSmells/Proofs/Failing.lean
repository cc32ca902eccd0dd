import Mathlib.Data.List.Forall2

/-!
# Computations that may fail

A computation in two steps gives a result exactly if both steps do (`bind_eq_ok`), and one over a list
gives a result if it does for each item (`exists_mapM`, `mapM_eq_some_iff`). Something that can be said
of a result shows that there is one (`exists_ok_of_toOption_map`). If every step fails with errors of one
kind only, so does the whole (`FailsOnly.bind`).
-/

namespace InfraSmells

/-! ## Results -/

/-- A computation in two steps succeeds if both do. -/
theorem bind_eq_ok {ε α β : Type} {x : Except ε α} {f : α → Except ε β} {b : β} :
    (x >>= f) = .ok b ↔ ∃ a, x = .ok a ∧ f a = .ok b := by
  cases x with
  | ok a => exact ⟨fun h => ⟨a, rfl, h⟩, fun ⟨_, ha, h⟩ => by cases ha; exact h⟩
  | error e => exact ⟨fun h => (by cases h), fun ⟨_, ha, _⟩ => by cases ha⟩

/-- What is left of a computation without its error is its result. -/
theorem toOption_eq_some_iff {ε α : Type} {x : Except ε α} {a : α} :
    x.toOption = some a ↔ x = .ok a := by
  cases x <;> simp [Except.toOption]

/-- A computation succeeds if there is something left of it without its error. -/
theorem exists_ok_of_toOption_map {ε α β : Type} {x : Except ε α} {f : α → β} {b : β}
    (h : x.toOption.map f = some b) : ∃ a, x = .ok a ∧ f a = b := by
  simpa only [Option.map_eq_some_iff, toOption_eq_some_iff] using h

/-- Where a function gives something for each item, it gives these things for the list. -/
theorem exists_mapM {α β ε : Type} {f : α → Except ε β} : ∀ {as : List α},
    (∀ a ∈ as, ∃ b, f a = .ok b) →
      ∃ bs, as.mapM f = .ok bs ∧ ∀ b, b ∈ bs ↔ ∃ a ∈ as, f a = .ok b
  | [], _ => ⟨[], rfl, by simp⟩
  | a :: as, h => by
    obtain ⟨⟨b, hb⟩, has⟩ := List.forall_mem_cons.1 h
    obtain ⟨bs, hbs, hmem⟩ := exists_mapM has
    refine ⟨b :: bs, ?_, fun c => ?_⟩
    · rw [List.mapM_cons, hb, hbs]
      rfl
    · rw [List.mem_cons, hmem, List.exists_mem_cons_iff, hb, Except.ok.injEq, eq_comm]

/-- What is found for each item makes the list that is found. -/
theorem mapM_eq_some_iff {α β : Type} {f : α → Option β} {as : List α} {bs : List β} :
    as.mapM f = some bs ↔ List.Forall₂ (fun a b => f a = some b) as bs := by
  induction as generalizing bs with
  | nil => cases bs <;> simp
  | cons a as ih => cases bs <;> simp [List.mapM_cons, Option.bind_eq_some_iff, ih]

/-! ## Failures of one kind -/

/-- If the computation fails, then with such an error. -/
def FailsOnly {ε α : Type} (P : ε → Prop) (x : Except ε α) : Prop :=
  ∀ e, x = .error e → P e

namespace FailsOnly

variable {ε α β : Type} {P : ε → Prop} {x : Except ε α}

/-- What succeeds does not fail. -/
theorem ok (a : α) : FailsOnly P (.ok a) :=
  fun _ h => nomatch h

/-- A failure has its error. -/
theorem error {e : ε} (h : P e) : FailsOnly P (.error e : Except ε α) := by
  intro e' he
  cases he
  exact h

/-- One step after the other fails as either does. -/
theorem bind {f : α → Except ε β} (hx : FailsOnly P x)
    (hf : ∀ a, x = .ok a → FailsOnly P (f a)) : FailsOnly P (x >>= f) := by
  cases x with
  | error e => exact .error (hx e rfl)
  | ok a => exact hf a rfl

/-- What is made of a success does not fail. -/
theorem map (hx : FailsOnly P x) (f : α → β) : FailsOnly P (x.map f) := by
  cases x with
  | error e => exact .error (hx e rfl)
  | ok a => exact .ok (f a)

end FailsOnly

end InfraSmells

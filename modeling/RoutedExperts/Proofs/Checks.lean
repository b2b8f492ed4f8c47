import RoutedExperts.Error

/-!
# Sequences of checks

A call is a sequence of checks, each of which passes its result on or refuses with an error. The
equations below turn "the sequence succeeds" into "every check succeeds, with these results", and
"the sequence fails" into "one of the checks refuses, and those before it succeed".
-/

namespace RoutedExperts

variable {α β : Type}

theorem pure_eq_ok (a : α) : (pure a : Except Error α) = .ok a := rfl

theorem throw_eq_error (e : Error) : (throw e : Except Error α) = .error e := rfl

/-- Nothing runs behind an error. -/
theorem error_bind (e : Error) (f : α → Except Error β) : (Except.error e >>= f) = .error e := rfl

/-- A sequence succeeds when its first check does and the rest does on the result. -/
theorem bind_eq_ok_iff (x : Except Error α) (f : α → Except Error β) (b : β) :
    x >>= f = .ok b ↔ ∃ a, x = .ok a ∧ f a = .ok b := by
  cases x with
  | error e => simp only [error_bind, reduceCtorEq, false_and, exists_false]
  | ok a =>
    change f a = .ok b ↔ _
    simp only [Except.ok.injEq, exists_eq_left']

/-- A guarded sequence succeeds when the guard lets it through and the rest succeeds. -/
theorem refuse_eq_ok_iff (p : Prop) [Decidable p] (e : Error) (x : Except Error α) (a : α) :
    (if p then .error e else x) = .ok a ↔ ¬ p ∧ x = .ok a := by
  by_cases h : p
  · simp only [h, ite_true, reduceCtorEq, not_true_eq_false, false_and]
  · simp only [h, ite_false, not_false_eq_true, true_and]

/-- A sequence fails where its first check does, or where the rest does on the result. -/
theorem bind_eq_error_iff (x : Except Error α) (f : α → Except Error β) (e : Error) :
    x >>= f = .error e ↔ x = .error e ∨ ∃ a, x = .ok a ∧ f a = .error e := by
  cases x with
  | error e' =>
    simp only [error_bind, Except.error.injEq, reduceCtorEq, false_and, exists_false, or_false]
  | ok a =>
    change f a = .error e ↔ _
    simp only [Except.ok.injEq, reduceCtorEq, false_or, exists_eq_left']

/-- A guarded sequence fails where the guard refuses, or where the rest fails. -/
theorem refuse_eq_error_iff (p : Prop) [Decidable p] (e e' : Error) (x : Except Error α) :
    (if p then .error e else x) = .error e' ↔ p ∧ e = e' ∨ ¬ p ∧ x = .error e' := by
  by_cases h : p
  · simp only [h, ite_true, Except.error.injEq, true_and, not_true_eq_false, false_and, or_false]
  · simp only [h, ite_false, not_false_eq_true, true_and, false_and, false_or]

/-- A check of every element succeeds when each of them does, with the list of their results. -/
theorem mapM_eq_ok_iff (f : α → Except Error β) (l : List α) (r : List β) :
    l.mapM f = .ok r ↔ l.map f = r.map .ok := by
  induction l generalizing r with
  | nil =>
    simp only [List.mapM_nil, pure_eq_ok, Except.ok.injEq, List.map_nil, List.nil_eq,
      List.map_eq_nil_iff]
  | cons a l ih =>
    simp only [List.mapM_cons, bind_eq_ok_iff, pure_eq_ok, Except.ok.injEq, List.map_cons, ih]
    constructor
    · rintro ⟨b, hb, bs, hbs, rfl⟩
      rw [hb, hbs, List.map_cons]
    · intro h
      cases r with
      | nil => simp only [List.map_nil, reduceCtorEq] at h
      | cons b bs =>
        obtain ⟨hb, hbs⟩ := List.cons.inj h
        exact ⟨b, hb, bs, hbs, rfl⟩

end RoutedExperts

import Dataflow.Trap

/-!
# Computations that may trap

What is known when a computation made of several parts has an answer: every part had one.

**Results.**
* `bind_eq_ok_iff`, `bind_eq_error_iff`, `exists_bind_iff`: two parts, one after the other.
* `exists_of_toOption_any`: a computation whose answer was tested has one.
* `exists_of_mem_mapM`, `exists_mem_of_mapM`, `exists_mapM_iff`, `mapM_flatten_eq_nil_iff`,
  `forM_eq_ok_iff`: the answers of one computation for each member of a list.
* `foldlM_invariant`: an invariant of the steps of a loop holds at its end.  It may speak of the
  members that were done and of those that are left.
-/

namespace Dataflow

section Parts

variable {ε α β : Type}

theorem bind_eq_ok_iff {x : Except ε α} {f : α → Except ε β} {b : β} :
    x >>= f = .ok b ↔ ∃ a, x = .ok a ∧ f a = .ok b := by
  cases x with
  | error e =>
      constructor
      · intro h
        cases h
      · rintro ⟨a, ⟨⟩, -⟩
  | ok a =>
      constructor
      · intro h
        exact ⟨a, rfl, h⟩
      · rintro ⟨_, ⟨⟩, h⟩
        exact h

theorem bind_eq_error_iff {x : Except ε α} {f : α → Except ε β} {e : ε}
    (hf : ∀ a, ∃ b, f a = .ok b) : x >>= f = .error e ↔ x = .error e := by
  cases x with
  | error e => exact ⟨fun h => congrArg Except.error (Except.error.inj h), fun h => by cases h; rfl⟩
  | ok a =>
      obtain ⟨b, hb⟩ := hf a
      refine iff_of_false ?_ nofun
      intro h
      cases hb.symm.trans h

/-- A part that always answers does not decide whether there is an answer. -/
theorem exists_bind_iff {x : Except ε α} {f : α → Except ε β} (hf : ∀ a, ∃ b, f a = .ok b) :
    (∃ b, x >>= f = .ok b) ↔ ∃ a, x = .ok a := by
  simp only [bind_eq_ok_iff]
  constructor
  · rintro ⟨_, a, ha, -⟩
    exact ⟨a, ha⟩
  · rintro ⟨a, ha⟩
    obtain ⟨b, hb⟩ := hf a
    exact ⟨b, a, ha, hb⟩

theorem map_eq_ok_iff {x : Except ε α} {f : α → β} {b : β} :
    x.map f = .ok b ↔ ∃ a, x = .ok a ∧ f a = b := by
  cases x <;> simp [Except.map]

theorem map_eq_error_iff {x : Except ε α} {f : α → β} {e : ε} :
    x.map f = .error e ↔ x = .error e := by
  cases x <;> simp [Except.map]

theorem exists_eq_ok {x : Except ε α} (h : ∀ e, x ≠ .error e) : ∃ a, x = .ok a := by
  cases x with
  | error e => exact (h e rfl).elim
  | ok a => exact ⟨a, rfl⟩

/-- A test that the answer of a computation passes. -/
theorem exists_of_toOption_any {x : Except ε α} {q : α → Bool} (h : x.toOption.any q = true) :
    ∃ a, x = .ok a ∧ q a = true := by
  cases x with
  | error e => cases h
  | ok a => exact ⟨a, rfl, h⟩

end Parts

section Lists

variable {ε α β σ : Type}

/-- Every answer of a list of computations is the answer for a member of the list. -/
theorem exists_of_mem_mapM {f : α → Except ε β} :
    ∀ {l : List α} {r : List β},
      l.mapM f = .ok r → ∀ y ∈ r, ∃ x ∈ l, f x = .ok y
  | [], r, h, y, hy => by
      cases h
      simp at hy
  | x :: l, r, h, y, hy => by
      rw [List.mapM_cons, bind_eq_ok_iff] at h
      obtain ⟨z, hz, h⟩ := h
      rw [bind_eq_ok_iff] at h
      obtain ⟨rest, hrest, h⟩ := h
      cases h
      rcases List.mem_cons.mp hy with rfl | hy
      · exact ⟨x, List.mem_cons_self, hz⟩
      · obtain ⟨x', hx', hf⟩ := exists_of_mem_mapM hrest y hy
        exact ⟨x', List.mem_cons_of_mem x hx', hf⟩

/-- Every member of a list of computations has its answer among the answers. -/
theorem exists_mem_of_mapM {f : α → Except ε β} :
    ∀ {l : List α} {r : List β},
      l.mapM f = .ok r → ∀ x ∈ l, ∃ y ∈ r, f x = .ok y
  | x :: l, r, h, z, hz => by
      rw [List.mapM_cons, bind_eq_ok_iff] at h
      obtain ⟨y, hy, h⟩ := h
      obtain ⟨rest, hrest, h⟩ := bind_eq_ok_iff.mp h
      cases h
      rcases List.mem_cons.mp hz with rfl | hz
      · exact ⟨y, List.mem_cons_self, hy⟩
      · obtain ⟨w, hw, hf⟩ := exists_mem_of_mapM hrest z hz
        exact ⟨w, List.mem_cons_of_mem y hw, hf⟩

/-- A list of computations has an answer where each of them has one. -/
theorem exists_mapM_iff {f : α → Except ε β} {l : List α} :
    (∃ r, l.mapM f = .ok r) ↔ ∀ x ∈ l, ∃ y, f x = .ok y := by
  induction l with
  | nil => exact ⟨fun _ _ hx => (List.not_mem_nil hx).elim, fun _ => ⟨[], rfl⟩⟩
  | cons x l ih =>
      rw [List.forall_mem_cons, ← ih]
      simp only [List.mapM_cons, bind_eq_ok_iff]
      constructor
      · rintro ⟨_, y, hy, rest, hrest, -⟩
        exact ⟨⟨y, hy⟩, rest, hrest⟩
      · rintro ⟨⟨y, hy⟩, rest, hrest⟩
        exact ⟨y :: rest, y, hy, rest, hrest, rfl⟩

theorem forM_eq_ok_iff {f : α → Except ε Unit} {l : List α} :
    l.forM f = .ok () ↔ ∀ x ∈ l, f x = .ok () := by
  induction l with
  | nil => exact ⟨fun _ _ hx => (List.not_mem_nil hx).elim, fun _ => rfl⟩
  | cons x l ih =>
      rw [List.forall_mem_cons, ← ih]
      show (f x >>= fun _ => l.forM f) = _ ↔ _
      rw [bind_eq_ok_iff]
      exact ⟨fun ⟨_, hx, hl⟩ => ⟨hx, hl⟩, fun ⟨hx, hl⟩ => ⟨(), hx, hl⟩⟩

/-- A list of computations that each collect something collects nothing if none of them does,
and only then. -/
theorem mapM_flatten_eq_nil_iff {f : α → Except ε (List β)} {l : List α} :
    (∃ r, l.mapM f = .ok r ∧ r.flatten = []) ↔ ∀ x ∈ l, f x = .ok [] := by
  induction l with
  | nil =>
      constructor
      · intro _ x hx
        cases hx
      · intro _
        exact ⟨[], rfl, rfl⟩
  | cons x l ih =>
      rw [List.forall_mem_cons, ← ih]
      simp only [List.mapM_cons, bind_eq_ok_iff]
      constructor
      · rintro ⟨r, ⟨y, hy, rest, hrest, hr⟩, hnil⟩
        cases hr
        rw [List.flatten_cons, List.append_eq_nil_iff] at hnil
        exact ⟨hnil.1 ▸ hy, rest, hrest, hnil.2⟩
      · rintro ⟨hx, rest, hrest, hnil⟩
        exact ⟨[] :: rest, ⟨[], hx, rest, hrest, rfl⟩, hnil⟩

/-- An invariant of a loop over the members `done` so far and those still to come. -/
theorem foldlM_invariant {f : σ → α → Except ε σ} {P : List α → List α → σ → Prop}
    (hstep : ∀ {done x todo s s'}, P done (x :: todo) s → f s x = .ok s' →
      P (done ++ [x]) todo s') :
    ∀ {done todo : List α} {s s' : σ},
      P done todo s → todo.foldlM f s = .ok s' → P (done ++ todo) [] s'
  | done, [], s, s', hP, h => by
      cases h
      rw [List.append_nil]
      exact hP
  | done, x :: todo, s, s', hP, h => by
      rw [List.foldlM_cons, bind_eq_ok_iff] at h
      obtain ⟨mid, hmid, h⟩ := h
      have hend := foldlM_invariant hstep (hstep hP hmid) h
      rw [List.append_assoc] at hend
      exact hend

/-- A loop has an answer where each of its steps has one and consumes the head of a list. -/
theorem exists_foldlM {f : σ → α → Except ε σ} {P : List α → σ → Prop}
    (hstep : ∀ {a rest s}, P (a :: rest) s → ∃ s', f s a = .ok s' ∧ P rest s')
    {as rest : List α} {s : σ} (h : P (as ++ rest) s) :
    ∃ s', as.foldlM f s = .ok s' ∧ P rest s' := by
  induction as generalizing s with
  | nil => exact ⟨s, rfl, h⟩
  | cons a as ih =>
      obtain ⟨s₁, hs₁, h₁⟩ := hstep h
      obtain ⟨s₂, hs₂, h₂⟩ := ih h₁
      exact ⟨s₂, bind_eq_ok_iff.mpr ⟨s₁, hs₁, hs₂⟩, h₂⟩

end Lists

end Dataflow

import Mathlib.Data.List.Nodup
import Mathlib.Data.List.Perm.Basic

/-!
# Lists in groups

Units, bundles and duties are made by going through labels in order and taking, for each label, the
entries that carry it.

**Results.**
* `nodup_sortedLabels`: a list that was sorted and then freed of repetitions names every label once.
* `flatMap_filter_perm`: the groups of all labels together are the entries, up to order.
* `count_flatMap_of_nodup`: where every entry gives only its own key, a key is given as often as its
  only entry gives it.
-/

namespace Dataflow

section Repetitions

variable {α : Type} [DecidableEq α]

theorem eraseRepsBy_loop_eq :
    ∀ (l : List α) (a : α) (acc : List α),
      List.eraseRepsBy.loop (· == ·) a l acc =
        acc.reverse ++ List.eraseRepsBy.loop (· == ·) a l []
  | [], a, acc => by
      simp [List.eraseRepsBy.loop]
  | b :: l, a, acc => by
      unfold List.eraseRepsBy.loop
      split
      · exact eraseRepsBy_loop_eq l a acc
      · rw [eraseRepsBy_loop_eq l b (a :: acc), eraseRepsBy_loop_eq l b [a]]
        simp

theorem eraseReps_cons_cons (a b : α) (l : List α) :
    (a :: b :: l).eraseReps =
      if a = b then (a :: l).eraseReps else a :: (b :: l).eraseReps := by
  show List.eraseRepsBy.loop _ a (b :: l) [] = _
  unfold List.eraseRepsBy.loop
  by_cases hab : a = b
  · simp [hab, List.eraseReps, List.eraseRepsBy]
  · simp only [beq_eq_false_iff_ne.mpr hab, if_neg hab]
    rw [eraseRepsBy_loop_eq l b [a]]
    rfl

theorem mem_eraseReps {x : α} :
    ∀ {l : List α}, x ∈ l.eraseReps ↔ x ∈ l
  | [] => by
      simp [List.eraseReps, List.eraseRepsBy]
  | [a] => by
      simp [List.eraseReps, List.eraseRepsBy, List.eraseRepsBy.loop]
  | a :: b :: l => by
      rw [eraseReps_cons_cons]
      split
      · rename_i hab
        rw [mem_eraseReps, hab]
        simp
      · rw [List.mem_cons, mem_eraseReps, List.mem_cons (a := x) (b := a)]

/-- In a sorted list equal entries stand together, so none is left twice. -/
theorem nodup_eraseReps {r : α → α → Prop} (hanti : ∀ a b, r a b → r b a → a = b) :
    ∀ {l : List α}, l.Pairwise r → l.eraseReps.Nodup
  | [], _ => by
      simp [List.eraseReps, List.eraseRepsBy]
  | [a], _ => by
      simp [List.eraseReps, List.eraseRepsBy, List.eraseRepsBy.loop]
  | a :: b :: l, h => by
      obtain ⟨ha, hl⟩ := List.pairwise_cons.mp h
      rw [eraseReps_cons_cons]
      split
      · rename_i hab
        subst hab
        exact nodup_eraseReps hanti hl
      · rename_i hab
        refine List.nodup_cons.mpr ⟨?_, nodup_eraseReps hanti hl⟩
        intro hin
        rcases List.mem_cons.mp (mem_eraseReps.mp hin) with he | hin
        · exact hab he
        · -- `b` stands between two occurrences of `a`
          exact hab (hanti a b (ha b List.mem_cons_self) ((List.pairwise_cons.mp hl).1 a hin))

/-- Every label once. -/
theorem nodup_sortedLabels {le : α → α → Bool}
    (htrans : ∀ a b c, le a b = true → le b c = true → le a c = true)
    (htotal : ∀ a b, (le a b || le b a) = true)
    (hanti : ∀ a b, le a b = true → le b a = true → a = b) (l : List α) :
    (l.mergeSort le).eraseReps.Nodup :=
  nodup_eraseReps hanti (List.pairwise_mergeSort htrans htotal l)

theorem mem_sortedLabels {le : α → α → Bool} {x : α} {l : List α} :
    x ∈ (l.mergeSort le).eraseReps ↔ x ∈ l := by
  rw [mem_eraseReps, List.mem_mergeSort]

theorem eraseDups_eq_self :
    ∀ {l : List α}, l.Nodup → l.eraseDups = l
  | [], _ => rfl
  | a :: l, h => by
      obtain ⟨ha, hl⟩ := List.nodup_cons.mp h
      have hkeep : (l.filter fun b => !b == a) = l := by
        rw [List.filter_eq_self]
        intro b hb
        have hne : b ≠ a := fun he => ha (he ▸ hb)
        simp [hne]
      rw [List.eraseDups_cons, hkeep, eraseDups_eq_self hl]

end Repetitions

section Groups

variable {α κ : Type} [DecidableEq κ]

/-- Of the labels only one is that of `x`. -/
theorem flatMap_own_label {k : κ} (x : α) :
    ∀ {labels : List κ}, labels.Nodup → k ∈ labels →
      (labels.flatMap fun k' => if k = k' then [x] else []) = [x]
  | [], _, hk => by
      cases hk
  | k' :: labels, hnodup, hk => by
      rw [List.nodup_cons] at hnodup
      rw [List.flatMap_cons]
      by_cases he : k = k'
      · have hrest : (labels.flatMap fun k' => if k = k' then [x] else []) = [] := by
          rw [List.flatMap_eq_nil_iff]
          intro l hl
          refine if_neg ?_
          rintro rfl
          exact hnodup.1 (he ▸ hl)
        rw [hrest, if_pos he, List.append_nil]
      · rw [if_neg he, List.nil_append]
        exact flatMap_own_label x hnodup.2 ((List.mem_cons.mp hk).resolve_left he)

/-- The groups of all labels together are the entries. -/
theorem flatMap_filter_perm (key : α → κ) {labels : List κ} (hnodup : labels.Nodup) :
    ∀ {l : List α}, (∀ x ∈ l, key x ∈ labels) →
      (labels.flatMap fun k => l.filter fun x => key x = k).Perm l
  | [], _ => by
      simp
  | x :: l, h => by
      have hx := flatMap_own_label x hnodup (h x List.mem_cons_self)
      have hl := flatMap_filter_perm key hnodup fun y hy => h y (List.mem_cons_of_mem x hy)
      have hsplit : (labels.flatMap fun k => (x :: l).filter fun y => key y = k) =
          labels.flatMap fun k =>
            (if key x = k then [x] else []) ++ l.filter fun y => key y = k := by
        refine List.flatMap_congr ?_
        intro k _
        by_cases he : key x = k <;> simp [he]
      rw [hsplit]
      refine (List.flatMap_append_perm labels _ _).symm.trans ?_
      rw [hx]
      exact hl.cons x

/-- Where every entry gives only its own key, a key comes from one entry. -/
theorem count_flatMap_of_nodup {key : α → κ} {f : α → List κ} :
    ∀ {l : List α}, (l.map key).Nodup → (∀ y ∈ l, ∀ k ∈ f y, k = key y) →
      ∀ {x : α}, x ∈ l → (l.flatMap f).count (key x) = (f x).length
  | [], _, _, x, hx => by
      cases hx
  | y :: l, hnodup, hown, x, hx => by
      rw [List.map_cons, List.nodup_cons] at hnodup
      have hself : ∀ z ∈ y :: l, (f z).count (key z) = (f z).length := by
        intro z hz
        rw [List.count_eq_length]
        intro k hk
        exact (hown z hz k hk).symm
      rw [List.flatMap_cons, List.count_append]
      rcases List.mem_cons.mp hx with rfl | hx
      · have hnone : (l.flatMap f).count (key x) = 0 := by
          rw [List.count_eq_zero]
          intro hin
          obtain ⟨z, hz, hk⟩ := List.mem_flatMap.mp hin
          have he := hown z (List.mem_cons_of_mem _ hz) _ hk
          exact hnodup.1 (List.mem_map.mpr ⟨z, hz, he.symm⟩)
        rw [hnone, hself x List.mem_cons_self, Nat.add_zero]
      · have hnone : (f y).count (key x) = 0 := by
          rw [List.count_eq_zero]
          intro hin
          have he := hown y List.mem_cons_self _ hin
          exact hnodup.1 (List.mem_map.mpr ⟨x, hx, he⟩)
        rw [hnone, Nat.zero_add]
        exact count_flatMap_of_nodup hnodup.2 (fun z hz => hown z (List.mem_cons_of_mem _ hz)) hx

end Groups

end Dataflow

import Dataflow.Graph.Edit
import Dataflow.Proofs.Graph.Edit
import Mathlib.Logic.Relation

/-!
# Subtrees

What is below a node of any graph, also of one whose containers list each other or nodes that do not
exist.

**Turns.**  A turn of a walk takes some number off the list of those that wait.  It passes over a
number seen before, and otherwise notes it and lets its listings wait (`Visit`).  Which number is
taken is left open, and so is the order of those that wait.

**Frontier.**  Everything that a walk has seen, or that still waits, is below the start, and what a
seen container lists was seen or waits (`Frontier`).

**Steps.**  A number is new only once, and lets its listings wait only then.  So those that wait and
the listings of containers not seen yet get fewer by one with each turn (`Visit.turnsLeft_lt`), and
the steps that the walk is given are enough until nothing waits.

**Results.**
* `visit_wellFounded`: whatever the order, no walk goes on for ever.
* `walk_iff`: whatever the order, a walk that has ended has found the same numbers.
* `contains_subtree_iff`: these are exactly the numbers below its start.
* `node?_removeNode`, `arc?_removeNode`: what is left after a node was taken out.
-/

namespace Dataflow
namespace Graph

section Defs

/-- The container `p` lists `c`. -/
def Holds (g : Graph) (p c : NodeId) : Prop := ∃ n, g.node? p = some n ∧ c ∈ n.kind.members

/-- The node `i` is `root` or below it. -/
def Below (g : Graph) (root i : NodeId) : Prop := Relation.ReflTransGen g.Holds root i

/-- What is listed at a number, if it belongs to a container. -/
def listed (g : Graph) (id : NodeId) : List NodeId :=
  match g.node? id with
  | some n => n.kind.members
  | none => []

/-- One turn of a walk, from what waits and what was seen before the turn to what does after it. -/
inductive Visit (g : Graph) :
    List NodeId × Std.ExtTreeSet NodeId → List NodeId × Std.ExtTreeSet NodeId → Prop
  | again {id : NodeId} {waiting rest after : List NodeId} {seen : Std.ExtTreeSet NodeId} :
      waiting.Perm (id :: rest) → id ∈ seen → after.Perm rest →
      Visit g (waiting, seen) (after, seen)
  | fresh {id : NodeId} {waiting rest after : List NodeId} {seen : Std.ExtTreeSet NodeId} :
      waiting.Perm (id :: rest) → id ∉ seen → after.Perm (g.listed id ++ rest) →
      Visit g (waiting, seen) (after, seen.insert id)

/-- A walk: turn after turn. -/
def Walk (g : Graph) :
    List NodeId × Std.ExtTreeSet NodeId → List NodeId × Std.ExtTreeSet NodeId → Prop :=
  Relation.ReflTransGen g.Visit

/-- Where a walk from `root` stands. -/
structure Frontier (g : Graph) (root : NodeId) (stack : List NodeId)
    (seen : Std.ExtTreeSet NodeId) : Prop where
  visited : ∀ i ∈ seen, g.Below root i
  waiting : ∀ i ∈ stack, g.Below root i
  start : root ∈ seen ∨ root ∈ stack
  closed : ∀ {i c}, i ∈ seen → g.Holds i c → c ∈ seen ∨ c ∈ stack

/-- Listings of containers that were not seen yet. -/
def pending (g : Graph) (seen : Std.ExtTreeSet NodeId) : Nat :=
  ((g.nodeList.filter fun n => !seen.contains n.1).flatMap fun n => n.2.kind.members).length

/-- Turns that are left at most. -/
def turnsLeft (g : Graph) (x : List NodeId × Std.ExtTreeSet NodeId) : Nat :=
  x.1.length + g.pending x.2

end Defs

section Frontiers

variable {g : Graph} {root id : NodeId} {stack stack' : List NodeId} {seen : Std.ExtTreeSet NodeId}
  {x y : List NodeId × Std.ExtTreeSet NodeId}

theorem mem_listed {c : NodeId} : c ∈ g.listed id ↔ g.Holds id c := by
  unfold listed Holds
  cases g.node? id <;> simp

theorem mem_insert_iff {i : NodeId} : i ∈ seen.insert id ↔ i = id ∨ i ∈ seen := by
  rw [Std.ExtTreeSet.mem_insert, Std.compare_eq_iff_eq, eq_comm]

/-- A number that comes back is passed over. -/
theorem Frontier.pass (h : g.Frontier root (id :: stack) seen) (hid : id ∈ seen) :
    g.Frontier root stack seen := by
  have hmove : ∀ {i}, i ∈ seen ∨ i ∈ id :: stack → i ∈ seen ∨ i ∈ stack := by
    rintro i (hi | hi)
    · exact .inl hi
    · rcases List.mem_cons.mp hi with rfl | hi
      · exact .inl hid
      · exact .inr hi
  refine ⟨h.visited, ?_, hmove h.start, ?_⟩
  · intro i hi
    exact h.waiting i (List.mem_cons_of_mem _ hi)
  · intro i c hi hc
    exact hmove (h.closed hi hc)

/-- A new number is seen, and what it lists has to be visited. -/
theorem Frontier.visit (h : g.Frontier root (id :: stack) seen) :
    g.Frontier root (g.listed id ++ stack) (seen.insert id) := by
  have hbelow : g.Below root id := h.waiting id List.mem_cons_self
  have hmove : ∀ {i}, i ∈ seen ∨ i ∈ id :: stack →
      i ∈ seen.insert id ∨ i ∈ g.listed id ++ stack := by
    rintro i (hi | hi)
    · exact .inl (mem_insert_iff.mpr (.inr hi))
    · rcases List.mem_cons.mp hi with rfl | hi
      · exact .inl (mem_insert_iff.mpr (.inl rfl))
      · exact .inr (List.mem_append_right _ hi)
  refine ⟨?_, ?_, hmove h.start, ?_⟩
  · intro i hi
    rcases mem_insert_iff.mp hi with rfl | hi
    · exact hbelow
    · exact h.visited i hi
  · intro i hi
    rcases List.mem_append.mp hi with hi | hi
    · exact hbelow.tail (mem_listed.mp hi)
    · exact h.waiting i (List.mem_cons_of_mem _ hi)
  · intro i c hi hc
    rcases mem_insert_iff.mp hi with rfl | hi
    · exact .inr (List.mem_append_left _ (mem_listed.mpr hc))
    · exact hmove (h.closed hi hc)

/-- The order in which numbers wait does not matter. -/
theorem Frontier.perm (h : g.Frontier root stack seen) (hperm : stack.Perm stack') :
    g.Frontier root stack' seen where
  visited := h.visited
  waiting i hi := h.waiting i (hperm.mem_iff.mpr hi)
  start := h.start.imp_right hperm.mem_iff.mp
  closed hi hc := (h.closed hi hc).imp_right hperm.mem_iff.mp

theorem Frontier.turn (h : g.Frontier root x.1 x.2) (hvisit : g.Visit x y) :
    g.Frontier root y.1 y.2 := by
  cases hvisit with
  | again htake hid hafter => exact ((h.perm htake).pass hid).perm hafter.symm
  | fresh htake _ hafter => exact (h.perm htake).visit.perm hafter.symm

theorem Frontier.walk (h : g.Frontier root x.1 x.2) (hwalk : g.Walk x y) :
    g.Frontier root y.1 y.2 := by
  induction hwalk with
  | refl => exact h
  | tail _ hvisit ih => exact ih.turn hvisit

theorem frontier_start : g.Frontier root [root] ∅ where
  visited i hi := by simp at hi
  waiting i hi := List.mem_singleton.mp hi ▸ .refl
  start := .inr (List.mem_singleton.mpr rfl)
  closed hi := by simp at hi

/-- A walk with nothing left to visit has seen exactly what is below its start. -/
theorem Frontier.mem_iff (h : g.Frontier root [] seen) {i : NodeId} :
    i ∈ seen ↔ g.Below root i := by
  constructor
  · exact h.visited i
  · intro hbelow
    induction hbelow with
    | refl => simpa using h.start
    | tail _ hc ih => simpa using h.closed ih hc

end Frontiers

section Turns

variable {g : Graph} {root id : NodeId} {seen : Std.ExtTreeSet NodeId}
  {x y : List NodeId × Std.ExtTreeSet NodeId}

/-- Seeing a node leaves the others unseen. -/
theorem unseen_insert {n : Node} (hn : g.node? id = some n) (hid : id ∉ seen) :
    (g.nodeList.filter fun m => !seen.contains m.1).Perm
      ((id, n) :: g.nodeList.filter fun m => !(seen.insert id).contains m.1) := by
  have hnodup : ∀ q : NodeId × Node → Bool, (g.nodeList.filter q).Nodup :=
    fun q => (nodup_of_distinct g.nodeList_distinct).filter q
  rw [List.perm_ext_iff_of_nodup (hnodup _)
    (List.nodup_cons.mpr ⟨by simp, hnodup _⟩)]
  rintro ⟨i, m⟩
  simp only [List.mem_filter, mem_nodeList, Bool.not_eq_true', List.mem_cons, Prod.mk.injEq,
    ← Bool.not_eq_true, ← Std.ExtTreeSet.mem_iff_contains, mem_insert_iff, not_or]
  constructor
  · rintro ⟨hm, hi⟩
    by_cases heq : i = id
    · subst heq
      exact .inl ⟨rfl, Option.some.inj (hm.symm.trans hn)⟩
    · exact .inr ⟨hm, heq, hi⟩
  · rintro (⟨rfl, rfl⟩ | ⟨hm, -, hi⟩)
    · exact ⟨hn, hid⟩
    · exact ⟨hm, hi⟩

/-- Seeing a container takes its listings out of what is pending. -/
theorem pending_insert {n : Node} (hn : g.node? id = some n) (hid : id ∉ seen) :
    g.pending seen = n.kind.members.length + g.pending (seen.insert id) := by
  simp only [pending, ((unseen_insert hn hid).flatMap_right _).length_eq, List.flatMap_cons,
    List.length_append]

/-- A number without a node lists nothing. -/
theorem pending_insert_of_none (hn : g.node? id = none) :
    g.pending (seen.insert id) = g.pending seen := by
  simp only [pending]
  congr 2
  refine List.filter_congr ?_
  rintro ⟨i, m⟩ hm
  have hne : i ≠ id := by
    rintro rfl
    rw [mem_nodeList.mp hm] at hn
    cases hn
  simp [Std.ExtTreeSet.contains_insert, Ne.symm hne]

/-- Seeing a number takes its listings out of what is pending. -/
theorem pending_listed (hid : id ∉ seen) :
    g.pending seen = (g.listed id).length + g.pending (seen.insert id) := by
  unfold listed
  cases hn : g.node? id with
  | none => simp [pending_insert_of_none hn]
  | some n => exact pending_insert hn hid

theorem Visit.turnsLeft_lt (h : g.Visit x y) : g.turnsLeft y < g.turnsLeft x := by
  cases h with
  | again htake _ hafter =>
      have hbefore := htake.length_eq
      rw [List.length_cons] at hbefore
      simp only [turnsLeft, hafter.length_eq, hbefore]
      omega
  | fresh htake hid hafter =>
      have hbefore := htake.length_eq
      have hless := pending_listed (g := g) hid
      rw [List.length_cons] at hbefore
      simp only [turnsLeft, hafter.length_eq, List.length_append, hbefore]
      omega

/-- Walks end, whatever the graph lists and in whatever order numbers are taken. -/
theorem visit_wellFounded (g : Graph) : WellFounded (flip g.Visit) :=
  Subrelation.wf (fun h => h.turnsLeft_lt) (measure g.turnsLeft).wf

end Turns

section Walks

variable {g : Graph} {root : NodeId}

/-- With enough steps the walk that takes the number on top goes on until nothing waits. -/
theorem walk_reachFrom {steps : Nat} {stack : List NodeId} {seen : Std.ExtTreeSet NodeId}
    (hsteps : g.turnsLeft (stack, seen) ≤ steps) :
    g.Walk (stack, seen) ([], g.reachFrom steps stack seen) := by
  induction steps generalizing stack seen with
  | zero =>
      have hnil : stack = [] :=
        List.length_eq_zero_iff.mp (by simp only [turnsLeft] at hsteps; omega)
      subst hnil
      exact .refl
  | succ steps ih =>
      cases stack with
      | nil => exact .refl
      | cons id stack =>
          -- a turn leaves fewer turns, so the steps that remain suffice for what follows
          have hturn : ∀ {y}, g.Visit (id :: stack, seen) y → g.turnsLeft y ≤ steps :=
            fun hvisit => Nat.le_of_lt_succ (Nat.lt_of_lt_of_le hvisit.turnsLeft_lt hsteps)
          rw [reachFrom]
          split
          · rename_i hseen
            have hvisit : g.Visit (id :: stack, seen) (stack, seen) :=
              .again (.refl _) (Std.ExtTreeSet.mem_iff_contains.mpr hseen) (.refl _)
            exact .head hvisit (ih (hturn hvisit))
          · rename_i hnew
            have hid : id ∉ seen := fun hid => hnew (Std.ExtTreeSet.mem_iff_contains.mp hid)
            have hvisit : g.Visit (id :: stack, seen) (g.listed id ++ stack, seen.insert id) :=
              .fresh (.refl _) hid (.refl _)
            have hrest : g.Walk (id :: stack, seen)
                ([], g.reachFrom steps (g.listed id ++ stack) (seen.insert id)) :=
              .head hvisit (ih (hturn hvisit))
            cases hn : g.node? id with
            | none => simpa [listed, hn] using hrest
            | some n => simpa [listed, hn] using hrest

theorem walk_subtree (g : Graph) (root : NodeId) : g.Walk ([root], ∅) ([], g.subtree root) := by
  refine walk_reachFrom ?_
  have hall : g.pending ∅ = g.listings := by
    simp [pending, listings]
  simp only [turnsLeft, hall, List.length_singleton]
  omega

/-- The walk finds exactly what is below its start. -/
theorem contains_subtree_iff {i : NodeId} :
    (g.subtree root).contains i = true ↔ g.Below root i := by
  rw [← Std.ExtTreeSet.mem_iff_contains]
  exact (frontier_start.walk (g.walk_subtree root)).mem_iff

/-- Whatever the order, the walks from a number that have ended have found its subtree. -/
theorem walk_iff {found : Std.ExtTreeSet NodeId} :
    g.Walk ([root], ∅) ([], found) ↔ found = g.subtree root := by
  constructor
  · intro hwalk
    refine Std.ExtTreeSet.ext_mem fun i => ?_
    rw [(frontier_start.walk hwalk).mem_iff, Std.ExtTreeSet.mem_iff_contains, contains_subtree_iff]
  · rintro rfl
    exact g.walk_subtree root

end Walks

section Removal

variable {g : Graph} {id : NodeId} {n : Node}

/-- What is kept of a table by a test of keys and entries. -/
theorem getElem?_filter_eq {κ β : Type} [Ord κ] [Std.TransOrd κ] [Std.LawfulEqOrd κ]
    (t : Std.ExtTreeMap κ β) (f : κ → β → Bool) (k : κ) :
    (t.filter f)[k]? = t[k]?.filter (f k) := by
  rw [Std.ExtTreeMap.getElem?_filter]
  simp only [Std.ExtTreeMap.getKey_eq, Option.pfilter_eq_filter]

theorem node?_restrict (keepNode : NodeId → Bool) (keepArc : Arc → Bool) (i : NodeId) :
    (g.restrict keepNode keepArc).node? i = if keepNode i = true then g.node? i else none := by
  show (g.nodes.filter fun i _ => keepNode i)[i]? = _
  rw [getElem?_filter_eq]
  cases hk : keepNode i <;> cases h : g.nodes[i]? <;> simp [node?, h]

theorem arc?_restrict (keepNode : NodeId → Bool) (keepArc : Arc → Bool) {i : ArcId} {a : Arc} :
    (g.restrict keepNode keepArc).arc? i = some a ↔ g.arc? i = some a ∧ keepArc a = true := by
  show (g.arcs.filter fun _ a => keepArc a)[i]? = some a ↔ _
  rw [getElem?_filter_eq, Option.filter_eq_some_iff]
  rfl

/-- Taking a node out removes what is below it, and its container no longer lists it. -/
theorem node?_removeNode (hn : g.node? id = some n) (i : NodeId) :
    (g.removeNode id).node? i =
      if (g.subtree id).contains i = true then none
      else if n.parent = some i then (g.node? i).map fun c => { c with kind := c.kind.disown id }
      else g.node? i := by
  simp only [removeNode, hn]
  cases hp : n.parent with
  | none => cases hc : (g.subtree id).contains i <;> simp [node?_restrict, hc]
  | some p =>
      simp only [node?_modifyNode, node?_restrict, Option.some.injEq, Bool.not_eq_true']
      by_cases hi : i = p
      · subst hi
        cases hc : (g.subtree id).contains i <;> simp
      · cases hc : (g.subtree id).contains i <;> simp [hi, Ne.symm hi]

/-- Taking a node out removes the arcs at what is below it, and no other. -/
theorem arc?_removeNode (hn : g.node? id = some n) {i : ArcId} {a : Arc} :
    (g.removeNode id).arc? i = some a ↔
      g.arc? i = some a ∧ (g.subtree id).contains a.src.node = false ∧
        ∀ c, a.dstNode = some c → (g.subtree id).contains c = false := by
  have harcs : (g.removeNode id).arc? i =
      (g.restrict (fun i => !(g.subtree id).contains i) fun a =>
        !((g.subtree id).contains a.src.node || a.dstNode.any (g.subtree id).contains)).arc? i := by
    simp only [removeNode, hn]
    cases n.parent <;> rfl
  rw [harcs, arc?_restrict]
  cases hd : a.dstNode <;> simp

theorem ids_removeNode : (g.removeNode id).ids = g.ids := by
  unfold removeNode
  split
  · rfl
  · dsimp only
    split <;> rfl

end Removal

end Graph
end Dataflow

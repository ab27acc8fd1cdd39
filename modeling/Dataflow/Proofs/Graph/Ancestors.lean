import Dataflow.Graph.Edit
import Dataflow.Proofs.Validation.Containment
import Mathlib.Data.Set.Card

/-!
# Ancestors

Where no node is above itself, the containers around a node form a line, from the nearest
to the outermost.

**Results.**
* `exists_line`: every node has such a line.
* `Line.mem_iff`, `Line.ordered`: it holds exactly what is above the node, each before
  what is above it.
* `Line.encard_eq`: it is as long as there are ancestors.
-/

namespace Dataflow
namespace Graph

section Defs

/-- The containers around a node, nearest first. -/
inductive Line (g : Graph) : NodeId → List NodeId → Prop
  | top {id : NodeId} :
      (∀ p, ¬ g.Parent id p) →
      Line g id []
  | inside {id p : NodeId} {line : List NodeId} :
      g.Parent id p →
      Line g p line →
      Line g id (p :: line)

end Defs

section Lines

variable {g : Graph} {id : NodeId} {line : List NodeId}

theorem parent_eq_none_iff {n : Node} (hn : g.node? id = some n) :
    n.parent = none ↔ ∀ p, ¬ g.Parent id p := by
  simp [Parent, hn, Option.eq_none_iff_forall_ne_some]

/-- A line holds exactly what is above its node. -/
theorem Line.mem_iff (h : g.Line id line) {a : NodeId} :
    a ∈ line ↔ Relation.TransGen g.Parent id a := by
  induction h with
  | top htop =>
      refine iff_of_false (List.not_mem_nil) fun habove => ?_
      obtain ⟨p, hp, -⟩ := Relation.TransGen.head'_iff.mp habove
      exact htop p hp
  | @inside id p line hp _ ih =>
      rw [List.mem_cons, ih]
      constructor
      · rintro (rfl | habove)
        · exact .single hp
        · exact .head hp habove
      · intro habove
        obtain ⟨q, hq, hrest⟩ := Relation.TransGen.head'_iff.mp habove
        obtain rfl := hp.unique hq
        exact Relation.reflTransGen_iff_eq_or_transGen.mp hrest

/-- In a line each container comes before those around it. -/
theorem Line.ordered (h : g.Line id line) :
    line.Pairwise fun inner outer => Relation.TransGen g.Parent inner outer := by
  induction h with
  | top => exact .nil
  | inside _ hline ih => exact .cons (fun _ ha => hline.mem_iff.mp ha) ih

/-- A node has one line. -/
theorem Line.unique {line' : List NodeId} (h : g.Line id line) (h' : g.Line id line') :
    line' = line := by
  induction h generalizing line' with
  | top htop =>
      cases h' with
      | top => rfl
      | inside hp _ => exact absurd hp (htop _)
  | inside hp _ ih =>
      cases h' with
      | top htop => exact absurd hp (htop _)
      | inside hq hline =>
          obtain rfl := hp.unique hq
          rw [ih hline]

/-- The rest of a line is the line of what comes before it. -/
theorem Line.rest {a : NodeId} {before after : List NodeId} (h : g.Line id (before ++ a :: after)) :
    g.Line a after := by
  induction before generalizing id with
  | nil =>
      cases h with
      | inside _ hline => exact hline
  | cons b before ih =>
      cases h with
      | inside _ hline => exact ih hline

variable (hacyclic : ∀ id, ¬ Relation.TransGen g.Parent id id)

include hacyclic

theorem Line.nodup (h : g.Line id line) : line.Nodup := by
  refine h.ordered.imp ?_
  rintro a _ habove rfl
  exact hacyclic a habove

/-- A node has as many ancestors as its line is long. -/
theorem Line.encard_eq (h : g.Line id line) :
    {a | Relation.TransGen g.Parent id a}.encard = line.length := by
  have hset : {a | Relation.TransGen g.Parent id a} = (line.toFinset : Set NodeId) := by
    ext a
    simp [h.mem_iff]
  rw [hset, Set.encard_coe_eq_coe_finsetCard, List.toFinset_card_of_nodup (h.nodup hacyclic)]

/-- Where no node is above itself, climbing ends, since there are only so many numbers. -/
theorem exists_line (id : NodeId) : ∃ line, g.Line id line := by
  have hinj : Function.Injective fun id : NodeId => id.val.toFin := by
    rintro ⟨a⟩ ⟨b⟩ h
    exact congrArg NodeId.mk (UInt32.toFin_inj.mp h)
  have : Finite NodeId := .of_injective _ hinj
  let above : NodeId → NodeId → Prop := fun p id => Relation.TransGen g.Parent id p
  have : IsTrans NodeId above := ⟨fun _ _ _ hab hbc => hbc.trans hab⟩
  have : Std.Irrefl above := ⟨hacyclic⟩
  induction id using (Finite.wellFounded_of_trans_of_irrefl above).induction with
  | h id ih =>
      by_cases htop : ∃ p, g.Parent id p
      · obtain ⟨p, hp⟩ := htop
        obtain ⟨line, hline⟩ := ih p (.single hp)
        exact ⟨p :: line, .inside hp hline⟩
      · exact ⟨[], .top (not_exists.mp htop)⟩

end Lines

section Layers

/-- A leaf in a clock domain in a subsystem in a clock domain. -/
def layered : Graph :=
  let build : Except Trap Graph := do
    let (outer, g) ← empty.addDomain none "outer" (.downsample 2)
    let (plain, g) ← g.addSubsystem (some outer) "plain"
    let (inner, g) ← g.addDomain (some plain) "inner" (.upsample 3)
    let (_, g) ← g.addPrimitive (some inner) "leaf" 0 0 ⟨0⟩
    return g
  build.toOption.getD empty

theorem layered_line : layered.Line ⟨3⟩ [⟨2⟩, ⟨1⟩, ⟨0⟩] := by
  have hroot : (layered.node? ⟨0⟩).bind Node.parent = none := by
    decide
  refine .inside (parent_iff.mpr ?_) (.inside (parent_iff.mpr ?_)
    (.inside (parent_iff.mpr ?_) (.top ?_)))
  · decide
  · decide
  · decide
  · intro p hp
    rw [parent_iff, hroot] at hp
    cases hp

end Layers

end Graph
end Dataflow

import Dataflow.Proofs.Graph.Ancestors
import Dataflow.Proofs.Graph.DotReading
import Dataflow.Proofs.Graph.Subtree
import Dataflow.Proofs.Validation.Structure

/-!
# Drawings

What is in the drawing of a graph, also of one whose containers list each other or nodes that do not
exist.

**Descent.**  `Draws` is the descent through containers, one rule for each way a number can be met.
It says nothing of steps.  Every number that is drawn is one less that is missing, so the steps that
the drawing is given are never used up (`adds_drawNode`).

**Once.**  A descent draws exactly the numbers that it adds to those drawn before, each with its own
node (`Draws.mem_iff`, `Draws.fresh`, `Draws.distinct`), and passes over no number that it is given
(`Draws.covers`).

**Nesting.**  Clusters are closed in the order of brackets (`WellNested`).  In a well-formed graph
everything is found below the containers without a parent (`WellFormed.drawn_from_roots`), and what
a container lists names it as its parent.  So the clusters that are open where a node is drawn are
its containers (`Draws.situated`).

**Text.**  What holds of the statements holds of the items that are read from the text
(`filterMap_flatMap_itemsOf`, `WellNested.nested`, `Situated.shown`).

**Result.**  `drawing_once_and_nested`, about what is read from the text of a drawing.
-/

namespace Dataflow

section Statements

namespace DotStatement

/-- The node that a statement draws. -/
def node? : DotStatement → Option (NodeId × Node)
  | leaf _ id n => some (id, n)
  | enter _ id n => some (id, n)
  | _ => none

/-- The leaf that a statement draws. -/
def leaf? : DotStatement → Option (NodeId × Node)
  | leaf _ id n => some (id, n)
  | _ => none

/-- The container whose cluster a statement opens. -/
def enter? : DotStatement → Option (NodeId × Node)
  | enter _ id n => some (id, n)
  | _ => none

/-- Whether a statement draws an arc. -/
def isEdge : DotStatement → Bool
  | edge .. => true
  | _ => false

/-- The edge that a statement draws: the names of its ends and its attributes. -/
def edge? : DotStatement → Option (String × String × List (String × String))
  | edge src dst ty channel =>
      some (Dot.nodeName src, Dot.nodeName dst, Dot.edgeAttributes ty channel)
  | _ => none

/-- A statement about a node draws it as what it is. -/
def Suits (g : Graph) : DotStatement → Prop
  | leaf _ id n => g.node? id = some n ∧ n.isLeaf = true
  | enter _ id n => g.node? id = some n ∧ n.isLeaf = false
  | leave .. => True
  | edge .. => False

/-- The open clusters after a statement, innermost first. -/
def openAfter (stack : List NodeId) : DotStatement → List NodeId
  | enter _ id _ => id :: stack
  | leave .. => stack.tail
  | _ => stack

/-- A statement that draws a leaf is one about a node that is a leaf. -/
theorem leaf?_eq {g : Graph} {s : DotStatement} (hs : s.Suits g ∨ s.isEdge = true) :
    s.leaf? = s.node?.filter fun x => x.2.isLeaf := by
  cases s with
  | leaf depth id n =>
      obtain ⟨-, hleaf⟩ := hs.resolve_right Bool.false_ne_true
      exact (Option.filter_some_pos (by simp [hleaf])).symm
  | enter depth id n =>
      obtain ⟨-, hleaf⟩ := hs.resolve_right Bool.false_ne_true
      exact (Option.filter_some_neg (by simp [hleaf])).symm
  | leave | edge => rfl

/-- A statement that opens a cluster is one about a node that is a container. -/
theorem enter?_eq {g : Graph} {s : DotStatement} (hs : s.Suits g ∨ s.isEdge = true) :
    s.enter? = s.node?.filter fun x => !x.2.isLeaf := by
  cases s with
  | leaf depth id n =>
      obtain ⟨-, hleaf⟩ := hs.resolve_right Bool.false_ne_true
      exact (Option.filter_some_neg (by simp [hleaf])).symm
  | enter depth id n =>
      obtain ⟨-, hleaf⟩ := hs.resolve_right Bool.false_ne_true
      exact (Option.filter_some_pos (by simp [hleaf])).symm
  | leave | edge => rfl

end DotStatement

/-- The nodes that are drawn, in the order of their statements. -/
def drawnNodes (statements : List DotStatement) : List (NodeId × Node) :=
  statements.filterMap DotStatement.node?

/-- The open clusters after some statements, innermost first. -/
def openClusters (stack : List NodeId) (statements : List DotStatement) : List NodeId :=
  statements.foldl DotStatement.openAfter stack

/-- Every cluster that is opened is closed, after those inside it. -/
inductive WellNested : List DotStatement → Prop
  | nil :
      WellNested []
  | leaf {depth : Nat} {id : NodeId} {n : Node} {rest : List DotStatement} :
      WellNested rest →
      WellNested (.leaf depth id n :: rest)
  | edge {src dst : NodeId} {ty : Option ElemType} {channel : Bool} {rest : List DotStatement} :
      WellNested rest →
      WellNested (.edge src dst ty channel :: rest)
  | cluster {depth : Nat} {id : NodeId} {n : Node} {inner rest : List DotStatement} :
      WellNested inner →
      WellNested rest →
      WellNested (.enter depth id n :: (inner ++ .leave depth id :: rest))

@[simp] theorem drawnNodes_nil : drawnNodes [] = [] := rfl

@[simp] theorem drawnNodes_leaf (depth : Nat) (id : NodeId) (n : Node) (rest : List DotStatement) :
    drawnNodes (.leaf depth id n :: rest) = (id, n) :: drawnNodes rest := rfl

@[simp] theorem drawnNodes_append (l m : List DotStatement) :
    drawnNodes (l ++ m) = drawnNodes l ++ drawnNodes m :=
  List.filterMap_append

@[simp] theorem drawnNodes_cluster (depth : Nat) (id : NodeId) (n : Node)
    (inner rest : List DotStatement) :
    drawnNodes (.enter depth id n :: (inner ++ .leave depth id :: rest)) =
      (id, n) :: (drawnNodes inner ++ drawnNodes rest) := by
  show (id, n) :: drawnNodes (inner ++ .leave depth id :: rest) = _
  rw [drawnNodes_append]
  rfl

theorem openClusters_append (stack : List NodeId) (l m : List DotStatement) :
    openClusters stack (l ++ m) = openClusters (openClusters stack l) m :=
  List.foldl_append

theorem WellNested.append {l m : List DotStatement} (hl : WellNested l) (hm : WellNested m) :
    WellNested (l ++ m) := by
  induction hl with
  | nil => exact hm
  | leaf _ ih => exact ih.leaf
  | edge _ ih => exact ih.edge
  | cluster hinner _ _ ih => simpa using WellNested.cluster hinner ih

theorem wellNested_of_edges {l : List DotStatement} (h : ∀ s ∈ l, s.isEdge = true) :
    WellNested l := by
  induction l with
  | nil => exact .nil
  | cons s l ih =>
      obtain ⟨hs, hl⟩ := List.forall_mem_cons.mp h
      cases s with
      | edge => exact .edge (ih hl)
      | leaf | enter | leave => cases hs

/-- Well-nested statements leave those clusters open that were. -/
theorem WellNested.openClusters_eq {l : List DotStatement} (h : WellNested l)
    (stack : List NodeId) : openClusters stack l = stack := by
  induction h generalizing stack with
  | nil => rfl
  | leaf _ ih => exact ih stack
  | edge _ ih => exact ih stack
  | @cluster _ id _ inner rest _ _ ihinner ihrest =>
      show openClusters (id :: stack) (inner ++ _ :: rest) = stack
      rw [openClusters_append, ihinner]
      exact ihrest stack

/-- Well-nested statements have well-nested items. -/
theorem WellNested.nested {l : List DotStatement} (h : WellNested l) :
    Dot.Nested (l.flatMap Dot.itemsOf) := by
  induction h with
  | nil => exact .nil
  | leaf _ ih => exact .cons rfl ih
  | edge _ ih => exact .cons rfl ih
  | @cluster depth id n inner rest _ _ ihinner ihrest =>
      have hinner :
          Dot.Nested ((Dot.itemsOf (.enter depth id n)).tail ++ inner.flatMap Dot.itemsOf) :=
        .cons rfl (.cons rfl (.cons rfl ihinner))
      have h : Dot.Nested (.subgraph (Dot.clusterName id) :: _) := .cluster hinner ihrest
      simpa [Dot.itemsOf] using h

end Statements

section Containers

/-- A leaf lists nothing. -/
theorem Node.members_eq_nil {n : Node} (hleaf : n.isLeaf = true) : n.kind.members = [] := by
  cases hk : n.kind <;> simp_all [Node.isLeaf, NodeKind.isContainer, NodeKind.members]

/-- What a container lists where it belongs is among its members. -/
theorem NodeKind.Lists.mem_members {container : NodeKind} {id : NodeId} {n : Node}
    (h : container.Lists id n) : id ∈ container.members := by
  unfold NodeKind.Lists at h
  cases container <;> split at h <;> simp_all [NodeKind.children, NodeKind.boundaries,
    NodeKind.members]

end Containers

namespace Graph

section Defs

/-- Drawing numbers one after the other inside `depth` clusters: what was drawn before, the
statements, and what is drawn afterwards. -/
inductive Draws (g : Graph) :
    Nat → List NodeId → Std.ExtTreeSet NodeId → List DotStatement → Std.ExtTreeSet NodeId → Prop
  | nil {depth : Nat} {drawn : Std.ExtTreeSet NodeId} :
      Draws g depth [] drawn [] drawn
  | missing {depth : Nat} {id : NodeId} {ids : List NodeId} {drawn after : Std.ExtTreeSet NodeId}
      {out : List DotStatement} :
      g.node? id = none →
      Draws g depth ids drawn out after →
      Draws g depth (id :: ids) drawn out after
  | again {depth : Nat} {id : NodeId} {ids : List NodeId} {drawn after : Std.ExtTreeSet NodeId}
      {out : List DotStatement} :
      id ∈ drawn →
      Draws g depth ids drawn out after →
      Draws g depth (id :: ids) drawn out after
  | leaf {depth : Nat} {id : NodeId} {n : Node} {ids : List NodeId}
      {drawn after : Std.ExtTreeSet NodeId}
      {out : List DotStatement} :
      g.node? id = some n →
      id ∉ drawn →
      n.isLeaf = true →
      Draws g depth ids (drawn.insert id) out after →
      Draws g depth (id :: ids) drawn (.leaf depth id n :: out) after
  | cluster {depth : Nat} {id : NodeId} {n : Node} {ids : List NodeId}
      {drawn between after : Std.ExtTreeSet NodeId} {inner out : List DotStatement} :
      g.node? id = some n →
      id ∉ drawn →
      n.isLeaf = false →
      Draws g (depth + 1) (sortIds n.kind.members) (drawn.insert id) inner between →
      Draws g depth ids between out after →
      Draws g depth (id :: ids) drawn (.enter depth id n :: (inner ++ .leave depth id :: out)) after

/-- What has no parent. -/
def roots (g : Graph) : List NodeId := (g.nodeList.filter fun n => n.2.parent.isNone).map Prod.fst

/-- Nodes that were not drawn. -/
def undrawn (g : Graph) (drawn : Std.ExtTreeSet NodeId) : Nat :=
  (g.nodeList.filter fun n => !drawn.contains n.1).length

/-- Each statement about a node stands where the open clusters are the containers of the node. -/
def Situated (g : Graph) : List NodeId → List DotStatement → Prop
  | _, [] => True
  | stack, s :: rest => (∀ x ∈ s.node?, g.Line x.1 stack) ∧ g.Situated (s.openAfter stack) rest

end Defs

section Descent

variable {g : Graph} {depth : Nat} {ids : List NodeId} {drawn after : Std.ExtTreeSet NodeId}
  {out : List DotStatement}

theorem Draws.suits (h : g.Draws depth ids drawn out after) : ∀ s ∈ out, s.Suits g := by
  induction h with
  | nil => simp
  | missing _ _ ih => exact ih
  | again _ _ ih => exact ih
  | leaf hn _ hleaf _ ih => exact List.forall_mem_cons.mpr ⟨⟨hn, hleaf⟩, ih⟩
  | cluster hn _ hleaf _ _ ihinner ihrest =>
      refine List.forall_mem_cons.mpr ⟨⟨hn, hleaf⟩, List.forall_mem_append.mpr ⟨ihinner, ?_⟩⟩
      exact List.forall_mem_cons.mpr ⟨trivial, ihrest⟩

theorem Draws.wellNested (h : g.Draws depth ids drawn out after) : WellNested out := by
  induction h with
  | nil => exact .nil
  | missing _ _ ih => exact ih
  | again _ _ ih => exact ih
  | leaf _ _ _ _ ih => exact .leaf ih
  | cluster _ _ _ _ _ ihinner ihrest => exact .cluster ihinner ihrest

/-- What is drawn afterwards was drawn before or has a statement. -/
theorem Draws.mem_iff (h : g.Draws depth ids drawn out after) {i : NodeId} :
    i ∈ after ↔ i ∈ drawn ∨ ∃ n, (i, n) ∈ drawnNodes out := by
  induction h with
  | nil => simp
  | missing _ _ ih => exact ih
  | again _ _ ih => exact ih
  | leaf _ _ _ _ ih =>
      rw [ih, mem_insert_iff, drawnNodes_leaf]
      grind
  | cluster _ _ _ _ _ ihinner ihrest =>
      rw [ihrest, ihinner, mem_insert_iff, drawnNodes_cluster]
      grind

theorem Draws.mono (h : g.Draws depth ids drawn out after) {i : NodeId} (hi : i ∈ drawn) :
    i ∈ after :=
  h.mem_iff.mpr (.inl hi)

/-- What has a statement was not drawn before. -/
theorem Draws.fresh (h : g.Draws depth ids drawn out after) :
    ∀ x ∈ drawnNodes out, g.node? x.1 = some x.2 ∧ x.1 ∉ drawn := by
  induction h with
  | nil => simp
  | missing _ _ ih => exact ih
  | again _ _ ih => exact ih
  | leaf hn hid _ _ ih =>
      rw [drawnNodes_leaf]
      refine List.forall_mem_cons.mpr ⟨⟨hn, hid⟩, fun x hx => ?_⟩
      obtain ⟨hnode, hnew⟩ := ih x hx
      exact ⟨hnode, fun hold => hnew (mem_insert_iff.mpr (.inr hold))⟩
  | cluster hn hid _ hinner _ ihinner ihrest =>
      rw [drawnNodes_cluster]
      refine List.forall_mem_cons.mpr ⟨⟨hn, hid⟩,
        List.forall_mem_append.mpr ⟨fun x hx => ?_, fun x hx => ?_⟩⟩
      · obtain ⟨hnode, hnew⟩ := ihinner x hx
        exact ⟨hnode, fun hold => hnew (mem_insert_iff.mpr (.inr hold))⟩
      · obtain ⟨hnode, hnew⟩ := ihrest x hx
        exact ⟨hnode, fun hold => hnew (hinner.mono (mem_insert_iff.mpr (.inr hold)))⟩

/-- No number has two statements. -/
theorem Draws.distinct (h : g.Draws depth ids drawn out after) :
    (drawnNodes out).Pairwise fun x y => x.1 ≠ y.1 := by
  induction h with
  | nil => exact .nil
  | missing _ _ ih => exact ih
  | again _ _ ih => exact ih
  | @leaf depth id n ids drawn after out _ _ _ hrest ih =>
      rw [drawnNodes_leaf]
      refine .cons (fun x hx he => ?_) ih
      exact (hrest.fresh x hx).2 (mem_insert_iff.mpr (.inl he.symm))
  | @cluster depth id n ids drawn between after inner out _ _ _ hinner hrest ihinner ihrest =>
      have hself : id ∈ between := hinner.mono (mem_insert_iff.mpr (.inl rfl))
      rw [drawnNodes_cluster]
      refine .cons (List.forall_mem_append.mpr ⟨fun x hx he => ?_, fun x hx he => ?_⟩)
        (List.pairwise_append.mpr ⟨ihinner, ihrest, fun x hx y hy he => ?_⟩)
      · exact (hinner.fresh x hx).2 (mem_insert_iff.mpr (.inl he.symm))
      · exact (hrest.fresh x hx).2 (he ▸ hself)
      · exact (hrest.fresh y hy).2 (he ▸ hinner.mem_iff.mpr (.inr ⟨x.2, hx⟩))

/-- Every number that has a node is drawn. -/
theorem Draws.covers (h : g.Draws depth ids drawn out after) {i : NodeId} {n : Node} (hi : i ∈ ids)
    (hn : g.node? i = some n) : i ∈ after := by
  induction h with
  | nil => cases hi
  | missing hnone _ ih =>
      rcases List.mem_cons.mp hi with rfl | hi
      · rw [hnone] at hn
        cases hn
      · exact ih hi
  | again hold hrest ih =>
      rcases List.mem_cons.mp hi with rfl | hi
      · exact hrest.mono hold
      · exact ih hi
  | leaf _ _ _ hrest ih =>
      rcases List.mem_cons.mp hi with rfl | hi
      · exact hrest.mono (mem_insert_iff.mpr (.inl rfl))
      · exact ih hi
  | cluster _ _ _ hinner hrest _ ihrest =>
      rcases List.mem_cons.mp hi with rfl | hi
      · exact hrest.mono (hinner.mono (mem_insert_iff.mpr (.inl rfl)))
      · exact ihrest hi

/-- What a drawn container lists is drawn too. -/
theorem Draws.covers_members (h : g.Draws depth ids drawn out after) :
    ∀ x ∈ drawnNodes out, ∀ c ∈ x.2.kind.members, ∀ m, g.node? c = some m → c ∈ after := by
  induction h with
  | nil => simp
  | missing _ _ ih => exact ih
  | again _ _ ih => exact ih
  | leaf _ _ hleaf _ ih =>
      rw [drawnNodes_leaf]
      refine List.forall_mem_cons.mpr ⟨fun c hc => ?_, ih⟩
      rw [Node.members_eq_nil hleaf] at hc
      cases hc
  | cluster _ _ _ hinner hrest ihinner ihrest =>
      rw [drawnNodes_cluster]
      refine List.forall_mem_cons.mpr ⟨fun c hc m hm => ?_,
        List.forall_mem_append.mpr ⟨fun x hx c hc m hm => ?_, ihrest⟩⟩
      · exact hrest.mono (hinner.covers (List.mem_mergeSort.mpr hc) hm)
      · exact hrest.mono (ihinner x hx c hc m hm)

/-- Numbers that were drawn get no statement. -/
theorem Draws.eq_nil (h : g.Draws depth ids drawn out after) (hall : ∀ i ∈ ids, i ∈ drawn) :
    out = [] := by
  induction h with
  | nil => rfl
  | missing _ _ ih => exact ih fun i hi => hall i (List.mem_cons_of_mem _ hi)
  | again _ _ ih => exact ih fun i hi => hall i (List.mem_cons_of_mem _ hi)
  | leaf _ hid => exact absurd (hall _ List.mem_cons_self) hid
  | cluster _ hid => exact absurd (hall _ List.mem_cons_self) hid

/-- A descent has one outcome: the rules exclude each other, those apart that both pass a number
over. -/
theorem Draws.unique {after' : Std.ExtTreeSet NodeId} {out' : List DotStatement}
    (h : g.Draws depth ids drawn out after) (h' : g.Draws depth ids drawn out' after') :
    out' = out ∧ after' = after := by
  induction h generalizing out' after' with
  | nil =>
      cases h'
      exact ⟨rfl, rfl⟩
  | missing hn _ ih =>
      cases h' <;> grind
  | again hid _ ih =>
      cases h' <;> grind
  | leaf hn hid hleaf _ ih =>
      cases h' <;> grind
  | cluster hn hid hleaf _ _ ihinner ihrest =>
      cases h' <;> grind

theorem Draws.iff {after' : Std.ExtTreeSet NodeId} {out' : List DotStatement}
    (h : g.Draws depth ids drawn out after) :
    g.Draws depth ids drawn out' after' ↔ out' = out ∧ after' = after := by
  refine ⟨h.unique, ?_⟩
  rintro ⟨rfl, rfl⟩
  exact h

theorem Draws.cons {id : NodeId} {between : Std.ExtTreeSet NodeId} {more : List DotStatement}
    (h : g.Draws depth [id] drawn out between) (hrest : g.Draws depth ids between more after) :
    g.Draws depth (id :: ids) drawn (out ++ more) after := by
  cases h with
  | missing hn hnil =>
      cases hnil
      exact .missing hn hrest
  | again hid hnil =>
      cases hnil
      exact .again hid hrest
  | leaf hn hid hleaf hnil =>
      cases hnil
      exact .leaf hn hid hleaf hrest
  | cluster hn hid hleaf hinner hnil =>
      cases hnil
      simpa using Draws.cluster hn hid hleaf hinner hrest

end Descent

section Steps

variable {g : Graph} {depth : Nat}

/-- The sketch `t` adds to the sketch `s` what drawing some numbers adds. -/
def Adds (g : Graph) (depth : Nat) (ids : List NodeId) (s t : Sketch) : Prop :=
  ∃ out, g.Draws depth ids s.drawn out t.drawn ∧ t.statements = s.statements ++ out

theorem undrawn_insert {drawn : Std.ExtTreeSet NodeId} {id : NodeId} {n : Node}
    (hn : g.node? id = some n) (hid : id ∉ drawn) :
    g.undrawn drawn = g.undrawn (drawn.insert id) + 1 :=
  (unseen_insert hn hid).length_eq

/-- Nothing that was drawn is missing afterwards. -/
theorem Adds.undrawn_le {ids : List NodeId} {s t : Sketch} (h : g.Adds depth ids s t) :
    g.undrawn t.drawn ≤ g.undrawn s.drawn := by
  obtain ⟨out, hdraws, -⟩ := h
  refine (List.monotone_filter_right _ fun x hx => ?_).length_le
  simp only [Bool.not_eq_true', ← Bool.not_eq_true, ← Std.ExtTreeSet.mem_iff_contains] at hx ⊢
  exact fun hold => hx (hdraws.mono hold)

/-- Drawing number after number, as long as each call has steps enough. -/
theorem adds_foldl {steps : Nat} {f : NodeId → Sketch → Sketch}
    (hf : ∀ id s, g.undrawn s.drawn ≤ steps → g.Adds depth [id] s (f id s)) :
    ∀ (ids : List NodeId) (s : Sketch), g.undrawn s.drawn ≤ steps →
      g.Adds depth ids s (ids.foldl (fun s id => f id s) s)
  | [], s, _ => ⟨[], .nil, (List.append_nil _).symm⟩
  | id :: ids, s, hs => by
      have hfirst := hf id s hs
      obtain ⟨more, hrest, hmore⟩ := adds_foldl hf ids (f id s) (Nat.le_trans hfirst.undrawn_le hs)
      obtain ⟨out, hdraws, hout⟩ := hfirst
      refine ⟨out ++ more, hdraws.cons hrest, ?_⟩
      rw [List.foldl_cons, hmore, hout, List.append_assoc]

/-- With as many steps as there are nodes missing, drawing a node is the descent. -/
theorem adds_drawNode :
    ∀ (steps depth : Nat) (id : NodeId) (s : Sketch), g.undrawn s.drawn ≤ steps →
      g.Adds depth [id] s (g.drawNode steps depth id s)
  | 0, depth, id, s, hs => by
      refine ⟨[], ?_, (List.append_nil _).symm⟩
      cases hn : g.node? id with
      | none => exact .missing hn .nil
      | some n =>
          by_cases hid : id ∈ s.drawn
          · exact .again hid .nil
          · rw [undrawn_insert hn hid] at hs
            omega
  | steps + 1, depth, id, s, hs => by
      cases hn : g.node? id with
      | none =>
          simp only [drawNode, hn]
          exact ⟨[], .missing hn .nil, (List.append_nil _).symm⟩
      | some n =>
          by_cases hid : id ∈ s.drawn
          · simp only [drawNode, hn, Std.ExtTreeSet.mem_iff_contains.mp hid, if_true]
            exact ⟨[], .again hid .nil, (List.append_nil _).symm⟩
          · have hnew : ¬ s.drawn.contains id = true := mt Std.ExtTreeSet.mem_iff_contains.mpr hid
            cases hleaf : n.isLeaf with
            | true =>
                simp only [drawNode, hn, hnew, hleaf, if_true]
                exact ⟨_, .leaf hn hid hleaf .nil, rfl⟩
            | false =>
                rw [undrawn_insert hn hid] at hs
                obtain ⟨inner, hinner, hout⟩ :=
                  adds_foldl (adds_drawNode steps (depth + 1)) (sortIds n.kind.members)
                    { drawn := s.drawn.insert id,
                      statements := s.statements ++ [.enter depth id n] }
                    (Nat.le_of_succ_le_succ hs)
                simp only [drawNode, hn, hnew, hleaf]
                refine ⟨_, .cluster hn hid hleaf hinner .nil, ?_⟩
                simp [hout]

theorem undrawn_le_size (drawn : Std.ExtTreeSet NodeId) : g.undrawn drawn ≤ g.nodes.size := by
  rw [← Std.ExtTreeMap.length_toList]
  exact List.length_filter_le ..

theorem adds_drawNodes (ids : List NodeId) (s : Sketch) : g.Adds 0 ids s (g.drawNodes ids s) :=
  adds_foldl (adds_drawNode g.nodes.size 0) ids s (undrawn_le_size _)

/-- A drawing is made by two descents, one from what has no parent and one from what is
still missing. -/
theorem exists_draws_drawing (g : Graph) :
    ∃ first drawn rest all,
      g.Draws 0 g.roots ∅ first drawn ∧ g.Draws 0 (g.nodeList.map Prod.fst) drawn rest all ∧
      g.drawing = first ++ rest ++ g.arcList.filterMap fun a => g.drawArc a.2 := by
  obtain ⟨first, hfirst, hout⟩ : g.Adds 0 g.roots {} (g.drawNodes g.roots {}) := adds_drawNodes ..
  obtain ⟨rest, hrest, hmore⟩ := adds_drawNodes (g.nodeList.map Prod.fst) (g.drawNodes g.roots {})
  refine ⟨first, _, rest, _, hfirst, hrest, ?_⟩
  show (g.drawNodes _ (g.drawNodes g.roots {})).statements ++ _ = _
  rw [hmore, hout, List.nil_append]

end Steps

section Arcs

variable {g : Graph}

theorem isEdge_of_mem_arcs {s : DotStatement}
    (hs : s ∈ g.arcList.filterMap fun a => g.drawArc a.2) : s.isEdge = true := by
  obtain ⟨a, -, ha⟩ := List.mem_filterMap.mp hs
  obtain ⟨dst, -, rfl⟩ := Option.map_eq_some_iff.mp ha
  rfl

end Arcs

section Once

variable {g : Graph} {first rest : List DotStatement} {drawn all : Std.ExtTreeSet NodeId}

/-- The two descents draw the nodes of the graph, each once. -/
theorem drawnNodes_perm (hfirst : g.Draws 0 g.roots ∅ first drawn)
    (hrest : g.Draws 0 (g.nodeList.map Prod.fst) drawn rest all) :
    (drawnNodes (first ++ rest)).Perm g.nodeList := by
  have hnode : ∀ x ∈ drawnNodes (first ++ rest), g.node? x.1 = some x.2 := by
    rw [drawnNodes_append]
    exact List.forall_mem_append.mpr ⟨fun x hx => (hfirst.fresh x hx).1,
      fun x hx => (hrest.fresh x hx).1⟩
  have hdistinct : (drawnNodes (first ++ rest)).Pairwise fun x y => x.1 ≠ y.1 := by
    rw [drawnNodes_append]
    refine List.pairwise_append.mpr ⟨hfirst.distinct, hrest.distinct, fun x hx y hy he => ?_⟩
    exact (hrest.fresh y hy).2 (he ▸ hfirst.mem_iff.mpr (.inr ⟨x.2, hx⟩))
  rw [List.perm_ext_iff_of_nodup (nodup_of_distinct hdistinct)
    (nodup_of_distinct g.nodeList_distinct)]
  rintro ⟨i, n⟩
  rw [mem_nodeList]
  refine ⟨fun hi => hnode _ hi, fun hn => ?_⟩
  have hall : i ∈ all := hrest.covers (List.mem_map.mpr ⟨(i, n), mem_nodeList.mpr hn, rfl⟩) hn
  rw [hrest.mem_iff, hfirst.mem_iff] at hall
  obtain ⟨m, hm⟩ : ∃ m, (i, m) ∈ drawnNodes (first ++ rest) := by
    rw [drawnNodes_append]
    rcases hall with (hnone | ⟨m, hm⟩) | ⟨m, hm⟩
    · simp at hnone
    · exact ⟨m, List.mem_append_left _ hm⟩
    · exact ⟨m, List.mem_append_right _ hm⟩
  obtain rfl : m = n := Option.some.inj ((hnode _ hm).symm.trans hn)
  exact hm

/-- A drawing shows the nodes of the graph, each once. -/
theorem drawnNodes_drawing_perm (g : Graph) : (drawnNodes g.drawing).Perm g.nodeList := by
  obtain ⟨first, drawn, rest, all, hfirst, hrest, hdrawing⟩ := g.exists_draws_drawing
  have hedges : drawnNodes (g.arcList.filterMap fun a => g.drawArc a.2) = [] := by
    refine List.filterMap_eq_nil_iff.mpr fun s hs => ?_
    obtain ⟨a, -, ha⟩ := List.mem_filterMap.mp hs
    obtain ⟨dst, -, rfl⟩ := Option.map_eq_some_iff.mp ha
    rfl
  rw [hdrawing, drawnNodes_append, hedges, List.append_nil]
  exact drawnNodes_perm hfirst hrest

theorem suits_or_isEdge (g : Graph) : ∀ s ∈ g.drawing, s.Suits g ∨ s.isEdge = true := by
  obtain ⟨first, drawn, rest, all, hfirst, hrest, hdrawing⟩ := g.exists_draws_drawing
  rw [hdrawing]
  refine List.forall_mem_append.mpr ⟨List.forall_mem_append.mpr ⟨?_, ?_⟩, ?_⟩
  · exact fun s hs => .inl (hfirst.suits s hs)
  · exact fun s hs => .inl (hrest.suits s hs)
  · exact fun s hs => .inr (isEdge_of_mem_arcs hs)

/-- The statements about nodes of some sort stand for the nodes of this sort, one for each. -/
theorem filterMap_drawing_perm {f : DotStatement → Option (NodeId × Node)}
    {sort : NodeId × Node → Bool}
    (hf : ∀ {s}, s.Suits g ∨ s.isEdge = true → f s = s.node?.filter sort) :
    (g.drawing.filterMap f).Perm (g.nodeList.filter sort) := by
  rw [List.filterMap_congr fun s hs => hf (g.suits_or_isEdge s hs), ← List.filter_filterMap]
  exact g.drawnNodes_drawing_perm.filter sort

theorem wellNested_drawing (g : Graph) : WellNested g.drawing := by
  obtain ⟨first, drawn, rest, all, hfirst, hrest, hdrawing⟩ := g.exists_draws_drawing
  rw [hdrawing]
  exact (hfirst.wellNested.append hrest.wellNested).append
    (wellNested_of_edges fun _ hs => isEdge_of_mem_arcs hs)

end Once

section Nesting

variable {g : Graph} {depth : Nat} {ids stack : List NodeId} {drawn after : Std.ExtTreeSet NodeId}
  {out : List DotStatement}

theorem situated_append {l m : List DotStatement} :
    g.Situated stack (l ++ m) ↔ g.Situated stack l ∧ g.Situated (openClusters stack l) m := by
  induction l generalizing stack with
  | nil => simp [Situated, openClusters]
  | cons s l ih => simp [Situated, openClusters, ih, and_assoc]

theorem situated_of_edges {l : List DotStatement} (h : ∀ s ∈ l, s.isEdge = true) :
    g.Situated stack l := by
  induction l generalizing stack with
  | nil => trivial
  | cons s l ih =>
      obtain ⟨hs, hl⟩ := List.forall_mem_cons.mp h
      refine ⟨fun x hx => ?_, ih hl⟩
      cases s <;> simp_all [DotStatement.node?, DotStatement.isEdge]

/-- A descent from members of a container draws them, and what is below them, where they belong. -/
theorem Draws.situated (hg : g.WellFormed) (h : g.Draws depth ids drawn out after)
    (hids : ∀ i ∈ ids, g.Line i stack) : g.Situated stack out := by
  induction h generalizing stack with
  | nil => trivial
  | missing _ _ ih => exact ih fun i hi => hids i (List.mem_cons_of_mem _ hi)
  | again _ _ ih => exact ih fun i hi => hids i (List.mem_cons_of_mem _ hi)
  | leaf _ _ _ _ ih =>
      refine ⟨?_, ih fun i hi => hids i (List.mem_cons_of_mem _ hi)⟩
      rintro _ ⟨⟩
      exact hids _ List.mem_cons_self
  | @cluster depth id n ids drawn between after inner out hn _ _ hinner _ ihinner ihrest =>
      have hline : g.Line id stack := hids _ List.mem_cons_self
      have hmembers : ∀ c ∈ sortIds n.kind.members, g.Line c (id :: stack) :=
        fun c hc => .inside (hg.back hn (List.mem_mergeSort.mp hc)) hline
      refine ⟨?_, situated_append.mpr ⟨ihinner hmembers, ?_⟩⟩
      · rintro _ ⟨⟩
        exact hline
      · rw [DotStatement.openAfter, hinner.wellNested.openClusters_eq]
        refine ⟨?_, ihrest fun i hi => hids i (List.mem_cons_of_mem _ hi)⟩
        rintro _ ⟨⟩

theorem mem_roots {i : NodeId} : i ∈ g.roots ↔ ∃ n, g.node? i = some n ∧ n.parent = none := by
  simp [roots]

/-- In a well-formed graph everything is found below what has no parent. -/
theorem WellFormed.drawn_from_roots (hg : g.WellFormed) (h : g.Draws depth g.roots ∅ out after)
    {i : NodeId} {line : List NodeId} (hline : g.Line i line) {n : Node} (hn : g.node? i = some n) :
    i ∈ after := by
  induction hline generalizing n with
  | top htop => exact h.covers (mem_roots.mpr ⟨n, hn, (parent_eq_none_iff hn).mpr htop⟩) hn
  | @inside i p line hp _ ih =>
      obtain ⟨m, hm⟩ := hg.parent hp
      obtain ⟨m', hdrawn⟩ : ∃ m', (p, m') ∈ drawnNodes out := by
        simpa using h.mem_iff.mp (ih hm)
      obtain rfl : m' = m := Option.some.inj ((h.fresh _ hdrawn).1.symm.trans hm)
      obtain ⟨n', hn', hparent⟩ := hp
      obtain rfl : n' = n := Option.some.inj (hn'.symm.trans hn)
      exact h.covers_members _ hdrawn i (hg.listed hn hparent hm).mem_members _ hn

/-- In a well-formed graph the first descent draws every node, so that the second finds
nothing to draw. -/
theorem WellFormed.exists_draws_drawing (hg : g.WellFormed) :
    ∃ first drawn, g.Draws 0 g.roots ∅ first drawn ∧
      g.drawing = first ++ g.arcList.filterMap fun a => g.drawArc a.2 := by
  obtain ⟨first, drawn, rest, all, hfirst, hrest, hdrawing⟩ := g.exists_draws_drawing
  obtain rfl : rest = [] := by
    refine hrest.eq_nil fun _ hi => ?_
    obtain ⟨⟨i, n⟩, hn, rfl⟩ := List.mem_map.mp hi
    obtain ⟨line, hline⟩ := exists_line hg.acyclic i
    exact hg.drawn_from_roots hfirst hline (mem_nodeList.mp hn)
  rw [List.append_nil] at hdrawing
  exact ⟨first, drawn, hfirst, hdrawing⟩

/-- In a well-formed graph each statement about a node stands inside the clusters of its
containers. -/
theorem WellFormed.situated_drawing (hg : g.WellFormed) : g.Situated [] g.drawing := by
  obtain ⟨first, drawn, hfirst, hdrawing⟩ := hg.exists_draws_drawing
  have hroots : ∀ i ∈ g.roots, g.Line i [] := by
    intro i hi
    obtain ⟨n, hn, hparent⟩ := mem_roots.mp hi
    exact .top ((parent_eq_none_iff hn).mp hparent)
  rw [hdrawing, situated_append]
  exact ⟨hfirst.situated hg hroots, situated_of_edges fun _ hs => isEdge_of_mem_arcs hs⟩

end Nesting

section Text

variable {g : Graph}

/-- What a view finds in the items of a drawing, statement by statement. -/
theorem filterMap_flatMap_itemsOf {β : Type} {view : Dot.Item → Option β}
    {f : DotStatement → Option β} (h : ∀ s, (Dot.itemsOf s).filterMap view = (f s).toList)
    (l : List DotStatement) : (l.flatMap Dot.itemsOf).filterMap view = l.filterMap f := by
  induction l with
  | nil => rfl
  | cons s l ih =>
      rw [List.flatMap_cons, List.filterMap_append, h, ih]
      cases hs : f s <;> simp [hs]

theorem filterMap_node?_itemsOf (s : DotStatement) :
    (Dot.itemsOf s).filterMap Dot.Item.node? =
      (s.leaf?.map fun x => (Dot.nodeName x.1, some (Dot.caption x.2))).toList := by
  cases s <;> rfl

theorem filterMap_subgraph?_itemsOf (s : DotStatement) :
    (Dot.itemsOf s).filterMap Dot.Item.subgraph? =
      (s.enter?.map fun x => Dot.clusterName x.1).toList := by
  cases s <;> rfl

/-- The edges of a drawing are those of the connected arcs, in their order. -/
theorem filterMap_edge?_drawing (g : Graph) :
    (g.drawing.flatMap Dot.itemsOf).filterMap Dot.Item.edge? =
      g.arcList.filterMap fun a => a.2.dstNode.map fun dst =>
        (Dot.nodeName a.2.src.node, Dot.nodeName dst,
          Dot.edgeAttributes a.2.ty (g.isChannel a.2.src.node || g.isChannel dst)) := by
  obtain ⟨first, drawn, rest, all, hfirst, hrest, hdrawing⟩ := g.exists_draws_drawing
  have hitems : ∀ s, (Dot.itemsOf s).filterMap Dot.Item.edge? = s.edge?.toList := by
    intro s
    cases s <;> rfl
  have hnone : ∀ s : DotStatement, s.Suits g → s.edge? = none := by
    intro s hs
    cases s with
    | edge => exact hs.elim
    | leaf | enter | leave => rfl
  rw [filterMap_flatMap_itemsOf hitems, hdrawing, List.filterMap_append, List.filterMap_append,
    List.filterMap_eq_nil_iff.mpr fun s hs => hnone s (hfirst.suits s hs),
    List.filterMap_eq_nil_iff.mpr fun s hs => hnone s (hrest.suits s hs), List.filterMap_filterMap]
  refine List.filterMap_congr fun a _ => ?_
  cases hdst : a.2.dstNode <;> simp [drawArc, hdst, DotStatement.edge?]

/-- Each item that shows a node stands where the open clusters are those of its containers. -/
def Shown (g : Graph) : List String → List Dot.Item → Prop
  | _, [] => True
  | stack, item :: rest =>
      (∀ id, item.Shows id → ∃ line, g.Line id line ∧ stack = line.map Dot.clusterName) ∧
        g.Shown (item.openAfter stack) rest

/-- Statements that stand where they belong have items that do. -/
theorem Situated.shown : ∀ {l : List DotStatement} {stack : List NodeId}, g.Situated stack l →
    g.Shown (stack.map Dot.clusterName) (l.flatMap Dot.itemsOf)
  | [], _, _ => trivial
  | .leaf depth id n :: l, stack, ⟨hs, hl⟩ => by
      refine ⟨fun id' hname => ?_, hl.shown⟩
      rw [← Dot.nodeName_injective hname]
      exact ⟨stack, hs _ rfl, rfl⟩
  | .enter depth id n :: l, stack, ⟨hs, hl⟩ => by
      refine ⟨fun id' hname => ?_, fun _ => False.elim, fun _ => False.elim,
        fun _ => False.elim, hl.shown⟩
      rw [← Dot.clusterName_injective hname]
      exact ⟨stack, hs _ rfl, rfl⟩
  | .leave depth id :: l, stack, ⟨_, hl⟩ => by
      have ih := hl.shown
      rw [DotStatement.openAfter, List.map_tail] at ih
      exact ⟨fun _ => False.elim, ih⟩
  | .edge src dst ty channel :: l, stack, ⟨_, hl⟩ => ⟨fun _ => False.elim, hl.shown⟩

theorem Shown.line {before after : List Dot.Item} {item : Dot.Item} {stack : List String}
    (h : g.Shown stack (before ++ item :: after)) {id : NodeId} (hitem : item.Shows id) :
    ∃ line, g.Line id line ∧ Dot.openNames stack before = line.map Dot.clusterName := by
  induction before generalizing stack with
  | nil => exact h.1 id hitem
  | cons _ before ih => exact ih h.2

end Text

section Whole

/-- The text of a drawing shows every node of a graph once, and every node of a well-formed
graph in its place.

* The text is read as one graph that is opened and closed.  What stands in it are some defaults and,
  one after the other, the items of the statements.
* The statements are made by two descents through the containers, without a bound on their depth,
  and the edges.  Each descent ends, and in one way only.
* For each leaf there is one node, with the name of the leaf and what else it has to say as its
  label.  For each container there is one cluster, and every cluster is closed, after those inside
  it.  For each connected arc there is one edge, between its ends.
* When validation reports nothing structural, the clusters that are open where a node is shown are
  those of its containers, from the nearest to the outermost. -/
theorem drawing_once_and_nested (g : Graph) (p : ChannelPolicy) :
    ∃ body, Dot.read g.dot = some (.digraph "ptc" :: (body ++ [.close])) ∧
      (∃ first drawn rest all,
        (∀ out after, g.Draws 0 g.roots ∅ out after ↔ out = first ∧ after = drawn) ∧
        (∀ out after, g.Draws 0 (g.nodeList.map Prod.fst) drawn out after ↔
          out = rest ∧ after = all) ∧
        body = Dot.preamble ++
          (first ++ rest ++ g.arcList.filterMap fun a => g.drawArc a.2).flatMap Dot.itemsOf) ∧
      (body.filterMap Dot.Item.node?).Perm
        ((g.nodeList.filter fun x => x.2.isLeaf).map fun x =>
          (Dot.nodeName x.1, some (Dot.caption x.2))) ∧
      (body.filterMap Dot.Item.subgraph?).Perm
        ((g.nodeList.filter fun x => !x.2.isLeaf).map fun x => Dot.clusterName x.1) ∧
      Dot.Nested body ∧
      body.filterMap Dot.Item.edge? = (g.arcList.filterMap fun a => a.2.dstNode.map fun dst =>
        (Dot.nodeName a.2.src.node, Dot.nodeName dst,
          Dot.edgeAttributes a.2.ty (g.isChannel a.2.src.node || g.isChannel dst))) ∧
      ((∀ v, g.validate p = .ok v → ∀ d ∈ v.diagnostics, d.errorClass ≠ .structural) →
        ∀ before item after id, body = before ++ item :: after → item.Shows id →
          ∃ line, g.Line id line ∧ Dot.openNames [] before = line.map Dot.clusterName) := by
  obtain ⟨first, drawn, rest, all, hfirst, hrest, hdrawing⟩ := g.exists_draws_drawing
  refine ⟨Dot.preamble ++ g.drawing.flatMap Dot.itemsOf, Dot.read_dot g,
    ⟨first, drawn, rest, all, fun _ _ => hfirst.iff, fun _ _ => hrest.iff, by rw [hdrawing]⟩,
    ?_, ?_, .cons rfl (.cons rfl (.cons rfl g.wellNested_drawing.nested)),
    g.filterMap_edge?_drawing, ?_⟩
  · have hleaves := filterMap_flatMap_itemsOf filterMap_node?_itemsOf g.drawing
    rw [← List.map_filterMap] at hleaves
    exact (List.Perm.of_eq hleaves).trans ((filterMap_drawing_perm DotStatement.leaf?_eq).map _)
  · have hclusters := filterMap_flatMap_itemsOf filterMap_subgraph?_itemsOf g.drawing
    rw [← List.map_filterMap] at hclusters
    exact (List.Perm.of_eq hclusters).trans ((filterMap_drawing_perm DotStatement.enter?_eq).map _)
  · intro hsound before item after id hsplit hitem
    have hshown := (wellFormed_of_forall_ne_structural hsound).situated_drawing.shown
    have hbody : g.Shown [] (Dot.preamble ++ g.drawing.flatMap Dot.itemsOf) :=
      ⟨fun _ => False.elim, fun _ => False.elim, fun _ => False.elim, hshown⟩
    rw [hsplit] at hbody
    exact hbody.line hitem

/-- Two leaves in a subsystem in a clock domain.  The names of the containers have a quote
and a backslash. -/
def gallery : Graph :=
  let build : Except Trap Graph := do
    let (outer, g) ← empty.addDomain none "the \"outer\" one" (.downsample 2)
    let (inner, g) ← g.addSubsystem (some outer) "c:\\"
    let (src, g) ← g.addPrimitive (some inner) "src" 0 1 ⟨0⟩
    let (dst, g) ← g.addPrimitive (some inner) "dst" 1 0 ⟨0⟩
    let (_, g) ← (g.setOutputType ⟨src, 0⟩ .f32).connect ⟨src, 0⟩ ⟨dst, 0⟩
    return g
  build.toOption.getD empty

/-- The text of each statement that draws the gallery. -/
def galleryTexts : List String :=
  ["    subgraph cluster_n0 \x7b\n"
      ++ "        label=\"domain: the \\\"outer\\\" one (1/2)\";\n"
      ++ "        style=rounded;\n"
      ++ "        color=blue;\n",
    "        subgraph cluster_n1 \x7b\n"
      ++ "            label=\"subsystem: c:\\\\\";\n"
      ++ "            style=dashed;\n"
      ++ "            color=gray50;\n",
    "            n2 [label=\"src\", shape=box, style=filled, fillcolor=\"#cfe2f3\"];\n",
    "            n3 [label=\"dst\", shape=box, style=filled, fillcolor=\"#cfe2f3\"];\n",
    "        \x7d\n",
    "    \x7d\n",
    "    n2 -> n3 [label=\"f32\"];\n"]

theorem map_text_gallery : gallery.drawing.map DotStatement.text = galleryTexts := by
  have hroots : gallery.roots = [⟨0⟩] := by
    decide
  have harcs : (gallery.arcList.filterMap fun a => gallery.drawArc a.2) =
      [.edge ⟨2⟩ ⟨3⟩ (some .f32) false] := by
    decide
  obtain ⟨outer, houter, hdomain, hone, htext₀⟩ : ∃ n, gallery.node? ⟨0⟩ = some n ∧
      n.isLeaf = false ∧ n.kind.members = [⟨1⟩] ∧
      (DotStatement.enter 0 ⟨0⟩ n).text = galleryTexts[0] := by
    decide
  obtain ⟨inner, hinner, hsubsystem, htwo, htext₁⟩ : ∃ n, gallery.node? ⟨1⟩ = some n ∧
      n.isLeaf = false ∧ n.kind.members = [⟨2⟩, ⟨3⟩] ∧
      (DotStatement.enter 1 ⟨1⟩ n).text = galleryTexts[1] := by
    decide
  obtain ⟨src, hsrc, hleaf₂, htext₂⟩ : ∃ n, gallery.node? ⟨2⟩ = some n ∧
      n.isLeaf = true ∧ (DotStatement.leaf 2 ⟨2⟩ n).text = galleryTexts[2] := by
    decide
  obtain ⟨dst, hdst, hleaf₃, htext₃⟩ : ∃ n, gallery.node? ⟨3⟩ = some n ∧
      n.isLeaf = true ∧ (DotStatement.leaf 2 ⟨3⟩ n).text = galleryTexts[3] := by
    decide
  obtain ⟨first, drawn, hfirst, hdrawing⟩ :=
    (wellFormed_of_isSound (by decide) : gallery.WellFormed).exists_draws_drawing
  obtain ⟨seen, hleaves⟩ : ∃ seen, gallery.Draws 2 (sortIds inner.kind.members)
      (((∅ : Std.ExtTreeSet NodeId).insert ⟨0⟩).insert ⟨1⟩)
      [.leaf 2 ⟨2⟩ src, .leaf 2 ⟨3⟩ dst] seen := by
    rw [htwo, sortIds, List.mergeSort_of_pairwise (by decide)]
    exact ⟨_, .leaf hsrc (by simp) hleaf₂ (.leaf hdst (by simp) hleaf₃ .nil)⟩
  have hinside :
      gallery.Draws 1 (sortIds outer.kind.members) ((∅ : Std.ExtTreeSet NodeId).insert ⟨0⟩)
      [.enter 1 ⟨1⟩ inner, .leaf 2 ⟨2⟩ src, .leaf 2 ⟨3⟩ dst, .leave 1 ⟨1⟩] seen := by
    rw [hone, sortIds, List.mergeSort_singleton]
    exact .cluster hinner (by simp) hsubsystem hleaves .nil
  rw [hroots] at hfirst
  obtain ⟨rfl, -⟩ := (Draws.cluster houter (by simp) hdomain hinside .nil).unique hfirst
  rw [hdrawing, harcs]
  simp only [List.nil_append, List.cons_append, List.map_cons, List.map_nil, htext₀, htext₁, htext₂,
    htext₃]
  rfl

theorem gallery_line : gallery.Line ⟨2⟩ [⟨1⟩, ⟨0⟩] := by
  have hroot : (gallery.node? ⟨0⟩).bind Node.parent = none := by
    decide
  refine .inside (parent_iff.mpr ?_) (.inside (parent_iff.mpr ?_) (.top ?_))
  · decide
  · decide
  · intro p hp
    rw [parent_iff, hroot] at hp
    cases hp

/-- The quotes and the backslash are escaped in the text.  The first leaf is shown inside the
cluster of the subsystem, which is inside that of the domain. -/
theorem drawing_once_and_nested_gallery :
    (∀ v, gallery.validate {} = .ok v → ∀ d ∈ v.diagnostics, d.errorClass ≠ .structural) ∧
    gallery.dot = "digraph ptc \x7b\n    rankdir=LR;\n"
      ++ "    node [fontname=\"Helvetica\", fontsize=10];\n"
      ++ "    edge [fontname=\"Helvetica\", fontsize=9];\n"
      ++ String.join galleryTexts ++ "\x7d\n" ∧
    ∃ before attributes after,
      Dot.read gallery.dot =
        some (.digraph "ptc" :: (before ++ .node "n2" attributes :: after ++ [.close])) ∧
      attributes.lookup "label" = some "src" ∧
      Dot.openNames [] before = ["cluster_n1", "cluster_n0"] := by
  have hsound :
      ∀ v, gallery.validate {} = .ok v → ∀ d ∈ v.diagnostics, d.errorClass ≠ .structural := by
    intro v hv d hd
    rw [validate_of_isClean (by decide)] at hv
    cases hv
    cases hd
  obtain ⟨n, hn, hleaf, hname⟩ : ∃ n, gallery.node? ⟨2⟩ = some n ∧ n.isLeaf = true ∧
      n.kind = .primitive "src" ∧ n.name = "src" := by
    decide
  obtain ⟨body, hread, -, hleaves, -, -, -, hnested⟩ := drawing_once_and_nested gallery {}
  have hmem : (Dot.nodeName ⟨2⟩, some (Dot.caption n)) ∈ body.filterMap Dot.Item.node? :=
    hleaves.mem_iff.mpr
      (List.mem_map.mpr ⟨_, List.mem_filter.mpr ⟨mem_nodeList.mpr hn, hleaf⟩, rfl⟩)
  obtain ⟨item, hitem, hshows⟩ := List.mem_filterMap.mp hmem
  obtain ⟨before, after, rfl⟩ := List.append_of_mem hitem
  cases item with
  | node name attributes =>
      obtain ⟨rfl, hlabel⟩ := Prod.mk.inj (Option.some.inj hshows)
      obtain ⟨line, hline, hopen⟩ := hnested hsound before _ after ⟨2⟩ rfl rfl
      obtain rfl := gallery_line.unique hline
      refine ⟨hsound, ?_, before, attributes, after, hread, ?_, hopen⟩
      · unfold dot
        rw [map_text_gallery]
      · rw [hlabel, Dot.caption, hname.1, hname.2]
  | digraph | subgraph | close | setting | defaults | edge => cases hshows

end Whole

end Graph
end Dataflow

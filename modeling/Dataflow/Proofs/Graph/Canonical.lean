import Dataflow.Proofs.Graph.Document
import Dataflow.Proofs.Graph.Table
import Dataflow.Provenance

/-!
# The text that stands for a graph

Two texts that give graphs give the same canonical text exactly if their documents have the same
nodes and the same arcs (`Graph.canonicalText_eq_iff`).

**From documents to texts.**  Entering a list into a table forgets its order, and the table is
written in the order of its numbers.

**From texts to documents.**  A written document is decoded as it was, so the canonical text gives
back both lists of the graph.
-/

namespace Dataflow

section Texts

namespace Document

/-- A text of a document: one of its spellings, with blanks before, between and after the tokens. -/
def Spelled (d : Document) (text : String) : Prop :=
  ∃ j as bs cs, d.record.Spells memberDefaults j ∧ j.Spaced cs ∧ Blank as ∧ Blank bs ∧
    text = String.ofList (as ++ (cs ++ bs))

theorem Spelled.decodeText_eq {d : Document} {text : String} (h : d.Spelled text) :
    decodeText Json.document text = .ok d := by
  obtain ⟨j, as, bs, cs, hj, hcs, has, hbs, rfl⟩ := h
  exact decodeText_of_read (Json.read_spaced hcs has hbs) (Respells.document d j hj)

theorem spelled_compact (d : Document) : d.Spelled d.toJson.compact := by
  refine ⟨d.toJson, [], [], d.toJson.chars, d.spells_toJson, ?_, .nil, .nil, ?_⟩
  · exact Json.spaced_chars _ (Inverts.document.isPlain d)
  · rw [List.append_nil]
    rfl

end Document

end Texts

section Order

namespace Graph

variable {d e : Document} {g : Graph}

theorem mem_nodeList_of_ofDocument (h : ofDocument d = .ok g) (x : NodeId × Node) :
    x ∈ g.nodeList ↔ x ∈ d.nodes := by
  rw [← (insertNodes_eq_ok_iff.mp (insert_of_ofDocument h).1).2 x.1 x.2]
  exact mem_nodeList

theorem mem_arcList_of_ofDocument (h : ofDocument d = .ok g) (x : ArcId × Arc) :
    x ∈ g.arcList ↔ x ∈ d.arcs := by
  rw [← (insertArcs_eq_ok_iff.mp (insert_of_ofDocument h).2).2 x.1 x.2]
  exact mem_arcList

/-- A document gives a graph if no number stands twice in a list and none is the last one. -/
theorem exists_ofDocument_of_distinct (bound : IdSupply)
    (hnodes : d.nodes.Pairwise fun x y => ¬ compare x.1 y.1 = .eq)
    (harcs : d.arcs.Pairwise fun x y => ¬ compare x.1 y.1 = .eq)
    (hnode : ∀ x ∈ d.nodes, x.1.val < bound.nextNode)
    (harc : ∀ x ∈ d.arcs, x.1.val < bound.nextArc) : ∃ g, ofDocument d = .ok g := by
  have hnodeTable := insertNodes_eq_ok_iff.mpr ⟨hnodes, getElem?_insertMany_iff hnodes⟩
  have harcTable := insertArcs_eq_ok_iff.mpr ⟨harcs, getElem?_insertMany_iff harcs⟩
  obtain ⟨g, hg, -, -⟩ := exists_ofDocument bound hnodeTable harcTable
    (fun id hid => hnode _ ((getElem?_insertMany_iff hnodes id _).mp
      (Std.ExtTreeMap.getElem?_eq_some_getElem hid)))
    (fun id hid => harc _ ((getElem?_insertMany_iff harcs id _).mp
      (Std.ExtTreeMap.getElem?_eq_some_getElem hid)))
  exact ⟨g, hg⟩

/-- A document still gives a graph when its lists are put into another order. -/
theorem exists_ofDocument_of_perm (hg : ofDocument d = .ok g) (hnodes : e.nodes.Perm d.nodes)
    (harcs : e.arcs.Perm d.arcs) : ∃ h, ofDocument e = .ok h := by
  obtain ⟨hdnodes, hdarcs⟩ := insert_of_ofDocument hg
  refine exists_ofDocument_of_distinct g.ids ?_ ?_ ?_ ?_
  · refine (hnodes.pairwise_iff fun hxy heq => ?_).mpr (insertNodes_eq_ok_iff.mp hdnodes).1
    exact hxy (Std.OrientedCmp.eq_symm heq)
  · refine (harcs.pairwise_iff fun hxy heq => ?_).mpr (insertArcs_eq_ok_iff.mp hdarcs).1
    exact hxy (Std.OrientedCmp.eq_symm heq)
  · intro x hx
    have hx : x ∈ g.nodeList := (mem_nodeList_of_ofDocument hg x).mpr (hnodes.mem_iff.mp hx)
    exact g.node_lt x.1 (mem_nodes_iff.mpr ⟨x.2, mem_nodeList.mp hx⟩)
  · intro x hx
    have hx : x ∈ g.arcList := (mem_arcList_of_ofDocument hg x).mpr (harcs.mem_iff.mp hx)
    exact g.arc_lt x.1 (mem_arcs_iff.mpr ⟨x.2, mem_arcList.mp hx⟩)

end Graph

end Order

section Canonical

namespace Graph

variable {g g' : Graph}

/-- The canonical text gives back both lists of a graph. -/
theorem canonicalText_eq_iff_lists :
    g.canonicalText = g'.canonicalText ↔ g.nodeList = g'.nodeList ∧ g.arcList = g'.arcList := by
  constructor
  · intro h
    have hg := Inverts.document.decodeText_compact (g.toDocument none)
    have hg' := Inverts.document.decodeText_compact (g'.toDocument none)
    have htext : (g.toDocument none).toJson.compact = (g'.toDocument none).toJson.compact := h
    rw [htext, hg', Except.ok.injEq] at hg
    exact ⟨(congrArg Document.nodes hg).symm, (congrArg Document.arcs hg).symm⟩
  · rintro ⟨hnodes, harcs⟩
    rw [canonicalText, canonicalText, toCompact, toCompact, toDocument, toDocument, hnodes, harcs]

theorem nodeList_eq_iff : g.nodeList = g'.nodeList ↔ ∀ x, x ∈ g.nodeList ↔ x ∈ g'.nodeList := by
  refine ⟨fun h x => by rw [h], fun h => ?_⟩
  exact eq_of_ordered (fun x => x.1.val) g.nodeList_ordered g'.nodeList_ordered h

theorem arcList_eq_iff : g.arcList = g'.arcList ↔ ∀ x, x ∈ g.arcList ↔ x ∈ g'.arcList := by
  refine ⟨fun h x => by rw [h], fun h => ?_⟩
  exact eq_of_ordered (fun x => x.1.val) g.arcList_ordered g'.arcList_ordered h

/-- The canonical text forgets the order of a document and nothing else. -/
theorem canonicalText_eq_iff_documents {d d' : Document} (hg : ofDocument d = .ok g)
    (hg' : ofDocument d' = .ok g') :
    g.canonicalText = g'.canonicalText ↔
      (∀ x, x ∈ d.nodes ↔ x ∈ d'.nodes) ∧ ∀ x, x ∈ d.arcs ↔ x ∈ d'.arcs := by
  rw [canonicalText_eq_iff_lists, nodeList_eq_iff, arcList_eq_iff]
  simp only [mem_nodeList_of_ofDocument hg, mem_nodeList_of_ofDocument hg',
    mem_arcList_of_ofDocument hg, mem_arcList_of_ofDocument hg']

/-- The canonical text of a graph stands for the nodes and the arcs of its documents, and
for nothing else.

* Two texts that give graphs hold documents, and their canonical texts agree exactly if the
  documents have the same nodes and the same arcs.
* A document with the same nodes and arcs in another order can be written with its members in any
  order, with members left off that hold their defaults, and with blanks anywhere between its
  tokens.  Every such text gives a graph, and with the same canonical text. -/
theorem canonicalText_eq_iff (text text' : String) (policy policy' : Option ChannelPolicy)
    (hg : ofText text = .ok (g, policy)) (hg' : ofText text' = .ok (g', policy')) :
    ∃ d d', decodeText Json.document text = .ok d ∧ decodeText Json.document text' = .ok d' ∧
      (g.canonicalText = g'.canonicalText ↔
        (∀ x, x ∈ d.nodes ↔ x ∈ d'.nodes) ∧ ∀ x, x ∈ d.arcs ↔ x ∈ d'.arcs) ∧
      ∀ (e : Document) (other : String), e.nodes.Perm d.nodes → e.arcs.Perm d.arcs →
      e.Spelled other →
        ∃ h, ofText other = .ok (h, e.policy) ∧ h.canonicalText = g.canonicalText := by
  obtain ⟨d, hd, hdg⟩ := exists_decodeText hg
  obtain ⟨d', hd', hdg'⟩ := exists_decodeText hg'
  refine ⟨d, d', hd, hd', canonicalText_eq_iff_documents hdg hdg', ?_⟩
  intro e other hnodes harcs hother
  obtain ⟨h, hh⟩ := exists_ofDocument_of_perm hdg hnodes harcs
  refine ⟨h, ofText_of_decodeText hother.decodeText_eq hh,
    (canonicalText_eq_iff_documents hh hdg).mpr ?_⟩
  exact ⟨fun _ => hnodes.mem_iff, fun _ => harcs.mem_iff⟩

/-- Two nodes, the second one first, and an arc between them. -/
def joined : Document where
  nodes := [
    (⟨1⟩, { name := "b", kind := .primitive "sink", inputs := [{}], partition := some ⟨0⟩ }),
    (⟨0⟩, { name := "a", kind := .subsystem [], outputs := [{}] })]
  arcs := [(⟨0⟩, { src := ⟨⟨0⟩, 0⟩, dst := .port ⟨⟨1⟩, 0⟩ })]

/-- The same nodes in the other order. -/
def turned : Document := { joined with nodes := joined.nodes.reverse }

/-- A spelling of it, with members in other orders and most defaults left off. -/
def turnedSpelling : Json :=
  .object [
    ("arcs", .array [.object [
      ("dst", .object [("port", .object [("port", .nat 0), ("node", .nat 1)])]),
      ("id", .nat 0), ("src", .object [("node", .nat 0), ("port", .nat 0)])]]),
    ("nodes", .array [
      .object [("name", .text "a"), ("outputs", .array [.object []]), ("type", .text "subsystem"),
        ("id", .nat 0)],
      .object [("op", .text "sink"), ("id", .nat 1), ("partition", .nat 0), ("name", .text "b"),
        ("inputs", .array [.object [("ty", .null)]]), ("type", .text "primitive")]])]

/-- The nodes without the arc. -/
def apart : Document := { joined with arcs := [] }

/-- Two different texts of the same nodes and arc give one canonical text, as does a third one in
the order of the second.  Without the arc the canonical text is another one. -/
theorem canonicalText_eq_iff_joined :
    ∃ g h k l, ofText joined.toJson.compact = .ok (g, none) ∧
      ofText turnedSpelling.pretty = .ok (h, none) ∧
      ofText turned.toJson.compact = .ok (k, none) ∧ ofText apart.toJson.compact = .ok (l, none) ∧
      joined.toJson.compact ≠ turnedSpelling.pretty ∧ turned.Spelled turned.toJson.compact ∧
      g.canonicalText = h.canonicalText ∧ k.canonicalText = g.canonicalText ∧
      g.canonicalText ≠ l.canonicalText := by
  have hjoined := joined.spelled_compact.decodeText_eq
  have hapart := apart.spelled_compact.decodeText_eq
  have hturned : decodeText Json.document turnedSpelling.pretty = .ok turned :=
    decodeText_of_read (Json.read_pretty (by decide)) (by decide)
  obtain ⟨g, hg⟩ : ∃ g, ofDocument joined = .ok g := by
    refine exists_ofDocument_of_distinct ⟨2, 1⟩ ?_ ?_ ?_ ?_ <;> decide
  obtain ⟨l, hl⟩ : ∃ l, ofDocument apart = .ok l := by
    refine exists_ofDocument_of_distinct ⟨2, 1⟩ ?_ ?_ ?_ ?_ <;> decide
  obtain ⟨h, hh⟩ : ∃ h, ofDocument turned = .ok h :=
    exists_ofDocument_of_perm hg (List.reverse_perm _) (.refl _)
  have htext := ofText_of_decodeText hjoined hg
  have hother := ofText_of_decodeText hturned hh
  have hcut := ofText_of_decodeText hapart hl
  obtain ⟨d, d', hd, hd', hsame, hspelled⟩ := canonicalText_eq_iff _ _ _ _ htext hother
  obtain ⟨e, e', he, he', hdiffer, -⟩ := canonicalText_eq_iff _ _ _ _ htext hcut
  cases hd.symm.trans hjoined
  cases hd'.symm.trans hturned
  cases he.symm.trans hjoined
  cases he'.symm.trans hapart
  obtain ⟨k, hk, hkg⟩ := hspelled turned _ (List.reverse_perm _) (.refl _) turned.spelled_compact
  refine ⟨g, h, k, l, htext, hother, hk, hcut, ?_, turned.spelled_compact, ?_, hkg, ?_⟩
  · intro heq
    cases hjoined.symm.trans (heq ▸ hturned)
  · exact hsame.mpr ⟨fun _ => List.mem_reverse.symm, fun _ => .rfl⟩
  · intro heq
    exact absurd (((hdiffer.mp heq).2 _).mp List.mem_cons_self) List.not_mem_nil

end Graph

end Canonical

end Dataflow

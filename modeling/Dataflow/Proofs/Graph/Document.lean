import Dataflow.Proofs.Graph.Spelling
import Dataflow.Proofs.Trap

/-!
# Graphs are read back from their documents

Either text of a graph gives back its nodes, its arcs and the policy it was written with
(`Graph.ofText_toText`).

**Tables.**  A list is entered into a table exactly if it has no number twice, and the table then
holds what the list has, in whatever order (`enter_eq_ok_iff`).  The lists of a written document are
those of two tables, so entering them gives the tables back.  The supply of the graph has passed
every number, so there is one left to continue with.
-/

namespace Dataflow

section Plain

@[simp] theorem isPlain_wordJson (w : UInt32) : (wordJson w).isPlain = true := rfl

@[simp] theorem isPlain_idsJson (ids : List NodeId) :
    (idsJson ids).isPlain = true := by simp [idsJson]

@[simp] theorem ElemType.isPlain_toJson (t : ElemType) : t.toJson.isPlain = true := by
  simp [ElemType.toJson]

@[simp] theorem Rate.isPlain_toJson (r : Rate) : r.toJson.isPlain = true := by simp [Rate.toJson]

@[simp] theorem Port.isPlain_toJson (p : Port) : p.toJson.isPlain = true := by simp [Port.toJson]

@[simp] theorem PortRef.isPlain_toJson (p : PortRef) :
    p.toJson.isPlain = true := by simp [PortRef.toJson]

@[simp] theorem ArcSink.isPlain_toJson (s : ArcSink) : s.toJson.isPlain = true := by
  cases s with
  | port p => simp [ArcSink.toJson]
  | unconnected => rfl

@[simp] theorem Arc.isPlain_toJson (id : ArcId) (a : Arc) : (a.toJson id).isPlain = true := by
  simp [Arc.toJson]

@[simp] theorem ChannelPolicy.isPlain_toJson (p : ChannelPolicy) : p.toJson.isPlain = true := by
  simp [ChannelPolicy.toJson]

theorem NodeKind.isPlain_fields (kind : NodeKind) :
    kind.fields.all (fun m => m.2.isPlain) = true := by
  have hdomain := Json.isPlain_orNull fun d : NodeId => isPlain_wordJson d.val
  cases kind <;> simp [fields, hdomain]

@[simp] theorem Node.isPlain_toJson (id : NodeId) (n : Node) : (n.toJson id).isPlain = true := by
  have hpartition := Json.isPlain_orNull fun p : PartitionId => isPlain_wordJson p.val
  have hparent := Json.isPlain_orNull fun p : NodeId => isPlain_wordJson p.val
  simp [Node.toJson_eq, n.kind.isPlain_fields, hpartition, hparent]

theorem Document.isPlain_toJson (d : Document) : d.toJson.isPlain = true := by
  obtain ⟨nodes, arcs, policy⟩ := d
  cases policy <;> simp [Document.toJson]

theorem Inverts.document : Inverts Json.document Document.toJson where
  isPlain := Document.isPlain_toJson
  decode_encode d := Respells.document d _ d.spells_toJson

end Plain

section Tables

variable {κ β ε : Type} [Ord κ] [Std.TransOrd κ]
  {enter : Std.ExtTreeMap κ β → List (κ × β) → Except ε (Std.ExtTreeMap κ β)}

/-- Whatever enters one entry after the other, and refuses only a number in use, enters a list
without a number twice. -/
theorem enter_eq_insertMany (hnil : ∀ table, enter table [] = .ok table)
    (hcons : ∀ table k v rest, k ∉ table →
      enter table ((k, v) :: rest) = enter (table.insert k v) rest)
    {l : List (κ × β)} (hl : l.Pairwise fun x y => ¬ compare x.1 y.1 = .eq)
    {table : Std.ExtTreeMap κ β} (hfresh : ∀ x ∈ l, x.1 ∉ table) :
    enter table l = .ok (table.insertMany l) := by
  induction l generalizing table with
  | nil => rw [hnil, Std.ExtTreeMap.insertMany_nil]
  | cons x l ih =>
      obtain ⟨hx, hl⟩ := List.pairwise_cons.mp hl
      rw [hcons _ _ _ _ (hfresh x List.mem_cons_self), Std.ExtTreeMap.insertMany_cons]
      refine ih hl fun y hy hmem => ?_
      rcases Std.ExtTreeMap.mem_insert.mp hmem with heq | hold
      · exact hx y hy heq
      · exact hfresh y (List.mem_cons_of_mem _ hy) hold

/-- A list that was entered has no number twice, and none that was in use before. -/
theorem distinct_of_enter
    (hcons : ∀ table k v rest, k ∉ table →
      enter table ((k, v) :: rest) = enter (table.insert k v) rest)
    (hused : ∀ table k v rest t, k ∈ table → enter table ((k, v) :: rest) ≠ .ok t)
    {l : List (κ × β)} {table t : Std.ExtTreeMap κ β} (h : enter table l = .ok t) :
    (l.Pairwise fun x y => ¬ compare x.1 y.1 = .eq) ∧ ∀ x ∈ l, x.1 ∉ table := by
  induction l generalizing table with
  | nil => exact ⟨.nil, nofun⟩
  | cons x l ih =>
      have hx : x.1 ∉ table := fun hmem => hused table x.1 x.2 l t hmem h
      rw [hcons table x.1 x.2 l hx] at h
      obtain ⟨hl, hfresh⟩ := ih h
      refine ⟨List.pairwise_cons.mpr ⟨?_, hl⟩, List.forall_mem_cons.mpr ⟨hx, ?_⟩⟩
      · intro y hy heq
        exact hfresh y hy (Std.ExtTreeMap.mem_insert.mpr (.inl heq))
      · intro y hy hmem
        exact hfresh y hy (Std.ExtTreeMap.mem_insert.mpr (.inr hmem))

variable [DecidableEq κ] [Std.LawfulEqOrd κ]

/-- A table holds what was entered. -/
theorem getElem?_insertMany_iff {l : List (κ × β)}
    (hl : l.Pairwise fun x y => ¬ compare x.1 y.1 = .eq) (k : κ) (v : β) :
    ((∅ : Std.ExtTreeMap κ β).insertMany l)[k]? = some v ↔ (k, v) ∈ l := by
  have hmem : ∀ v, (k, v) ∈ l → ((∅ : Std.ExtTreeMap κ β).insertMany l)[k]? = some v := fun v hv =>
    Std.ExtTreeMap.getElem?_insertMany_list_of_mem Std.ReflCmp.compare_self hl hv
  refine ⟨fun hv => ?_, hmem v⟩
  by_cases hk : k ∈ l.map Prod.fst
  · obtain ⟨⟨k, w⟩, hw, rfl⟩ := List.mem_map.mp hk
    cases (hmem w hw).symm.trans hv
    exact hw
  · rw [Std.ExtTreeMap.getElem?_insertMany_list_of_contains_eq_false] at hv
    · rw [Std.ExtTreeMap.getElem?_empty] at hv
      cases hv
    · simpa using hk

/-- A list is entered exactly if it has no number twice, and the table then holds what the list
has. -/
theorem enter_eq_ok_iff (hnil : ∀ table, enter table [] = .ok table)
    (hcons : ∀ table k v rest, k ∉ table →
      enter table ((k, v) :: rest) = enter (table.insert k v) rest)
    (hused : ∀ table k v rest t, k ∈ table → enter table ((k, v) :: rest) ≠ .ok t)
    {l : List (κ × β)} {t : Std.ExtTreeMap κ β} :
    enter ∅ l = .ok t ↔
      (l.Pairwise fun x y => ¬ compare x.1 y.1 = .eq) ∧ ∀ k v, t[k]? = some v ↔ (k, v) ∈ l := by
  have hempty : ∀ x ∈ l, x.1 ∉ (∅ : Std.ExtTreeMap κ β) := fun _ _ => Std.ExtTreeMap.not_mem_empty
  constructor
  · intro h
    have hl := (distinct_of_enter hcons hused h).1
    cases (enter_eq_insertMany hnil hcons hl hempty).symm.trans h
    exact ⟨hl, getElem?_insertMany_iff hl⟩
  · rintro ⟨hl, ht⟩
    rw [enter_eq_insertMany hnil hcons hl hempty, Except.ok.injEq]
    refine Std.ExtTreeMap.ext_getElem? fun k => Option.ext fun v => ?_
    rw [getElem?_insertMany_iff hl, ht]

namespace Graph

theorem insertNodes_eq_ok_iff {l : List (NodeId × Node)} {t : NodeTable} :
    insertNodes ∅ l = .ok t ↔
      (l.Pairwise fun x y => ¬ compare x.1 y.1 = .eq) ∧ ∀ id n, t[id]? = some n ↔ (id, n) ∈ l := by
  refine enter_eq_ok_iff (fun _ => rfl) (fun _ _ _ _ h => if_neg h) fun table id n rest t hid => ?_
  rw [insertNodes, if_pos (Std.ExtTreeMap.mem_iff_contains.mp hid)]
  exact nofun

theorem insertArcs_eq_ok_iff {l : List (ArcId × Arc)} {t : ArcTable} :
    insertArcs ∅ l = .ok t ↔
      (l.Pairwise fun x y => ¬ compare x.1 y.1 = .eq) ∧ ∀ id a, t[id]? = some a ↔ (id, a) ∈ l := by
  refine enter_eq_ok_iff (fun _ => rfl) (fun _ _ _ _ h => if_neg h) fun table id a rest t hid => ?_
  rw [insertArcs, if_pos (Std.ExtTreeMap.mem_iff_contains.mp hid)]
  exact nofun

theorem insertNodes_nodeList (g : Graph) : insertNodes ∅ g.nodeList = .ok g.nodes :=
  insertNodes_eq_ok_iff.mpr ⟨Std.ExtTreeMap.distinct_keys_toList,
    fun _ _ => Std.ExtTreeMap.mem_toList_iff_getElem?_eq_some.symm⟩

theorem insertArcs_arcList (g : Graph) : insertArcs ∅ g.arcList = .ok g.arcs :=
  insertArcs_eq_ok_iff.mpr ⟨Std.ExtTreeMap.distinct_keys_toList,
    fun _ _ => Std.ExtTreeMap.mem_toList_iff_getElem?_eq_some.symm⟩

end Graph

end Tables

section Supply

/-- A number that a counter has passed leaves room for the next one. -/
theorem exists_addWord_one {a b : UInt32} (h : a < b) : ∃ c, addWord a 1 = .ok c := by
  have hb : b.toNat < wordLimit := b.toNat_lt
  rw [UInt32.lt_iff_toNat_lt] at h
  refine ⟨a + 1, if_pos ?_⟩
  show a.toNat + 1 < wordLimit
  omega

namespace IdSupply

theorem exists_reserveNode (s : IdSupply) {id : NodeId} {bound : UInt32} (h : id.val < bound) :
    ∃ s', s.reserveNode id = .ok s' := by
  obtain ⟨next, hnext⟩ := exists_addWord_one h
  exact ⟨_, bind_eq_ok_iff.mpr ⟨next, hnext, rfl⟩⟩

theorem exists_reserveArc (s : IdSupply) {id : ArcId} {bound : UInt32} (h : id.val < bound) :
    ∃ s', s.reserveArc id = .ok s' := by
  obtain ⟨next, hnext⟩ := exists_addWord_one h
  exact ⟨_, bind_eq_ok_iff.mpr ⟨next, hnext, rfl⟩⟩

/-- Counters can be moved past numbers that another supply has passed. -/
theorem exists_reserve (s bound : IdSupply) {node : Option NodeId} {arc : Option ArcId}
    (hnode : ∀ id ∈ node, id.val < bound.nextNode) (harc : ∀ id ∈ arc, id.val < bound.nextArc) :
    ∃ ids, s.reserve node arc = .ok ids := by
  have hrest : ∀ s : IdSupply, ∃ ids, s.reserve none arc = .ok ids := by
    intro s
    cases arc with
    | none => exact ⟨s, rfl⟩
    | some id => exact exists_reserveArc s (harc id rfl)
  cases node with
  | none => exact hrest s
  | some id =>
      obtain ⟨mid, hmid⟩ := exists_reserveNode s (hnode id rfl)
      obtain ⟨ids, hids⟩ := hrest mid
      exact ⟨ids, bind_eq_ok_iff.mpr ⟨mid, hmid, hids⟩⟩

end IdSupply

end Supply

section Exchange

namespace Graph

/-- A document gives a graph with its tables, if no number in them is the last one. -/
theorem exists_ofDocument {d : Document} {nodes : NodeTable} {arcs : ArcTable} (bound : IdSupply)
    (hnodes : insertNodes ∅ d.nodes = .ok nodes) (harcs : insertArcs ∅ d.arcs = .ok arcs)
    (hnode : ∀ id ∈ nodes, id.val < bound.nextNode) (harc : ∀ id ∈ arcs, id.val < bound.nextArc) :
    ∃ g, ofDocument d = .ok g ∧ g.nodes = nodes ∧ g.arcs = arcs := by
  obtain ⟨ids, hids⟩ := IdSupply.exists_reserve {} bound
    (fun id hid => hnode id (Std.ExtTreeMap.maxKey?_mem hid))
    (fun id hid => harc id (Std.ExtTreeMap.maxKey?_mem hid))
  simp only [ofDocument, hnodes, harcs, ok_bind]
  split
  · exact ⟨_, rfl, rfl, rfl⟩
  · rename_i trap htrap
    rw [hids] at htrap
    cases htrap

/-- The document of a graph gives back its tables. -/
theorem exists_ofDocument_toDocument (g : Graph) (policy : Option ChannelPolicy) :
    ∃ g', ofDocument (g.toDocument policy) = .ok g' ∧ g'.nodes = g.nodes ∧ g'.arcs = g.arcs :=
  exists_ofDocument g.ids g.insertNodes_nodeList g.insertArcs_arcList g.node_lt g.arc_lt

/-- The tables of a graph are those of its document. -/
theorem insert_of_ofDocument {d : Document} {g : Graph} (h : ofDocument d = .ok g) :
    insertNodes ∅ d.nodes = .ok g.nodes ∧ insertArcs ∅ d.arcs = .ok g.arcs := by
  obtain ⟨nodes, hnodes, h⟩ := bind_eq_ok_iff.mp h
  obtain ⟨arcs, harcs, h⟩ := bind_eq_ok_iff.mp h
  rw [hnodes, harcs]
  split at h
  · cases h
    exact ⟨rfl, rfl⟩
  · cases h

/-- A text that holds a document gives its graph and its policy. -/
theorem ofText_of_decodeText {d : Document} {g : Graph} {text : String}
    (htext : decodeText Json.document text = .ok d) (hg : ofDocument d = .ok g) :
    ofText text = .ok (g, d.policy) := by
  simp only [ofText, htext, hg, ok_bind]
  rfl

/-- A text that gives a graph holds its document. -/
theorem exists_decodeText {g : Graph} {policy : Option ChannelPolicy} {text : String}
    (h : ofText text = .ok (g, policy)) :
    ∃ d, decodeText Json.document text = .ok d ∧ ofDocument d = .ok g := by
  rw [ofText] at h
  split at h
  · cases h
  · rename_i d hd
    obtain ⟨g', hg', heq⟩ := bind_eq_ok_iff.mp h
    cases heq
    exact ⟨d, hd, hg'⟩

/-- Writing a graph and reading it back keeps its nodes, its arcs and the policy, in
either layout. -/
theorem ofText_toText (g : Graph) (policy : Option ChannelPolicy) :
    ∃ g', ofText (g.toCompact policy) = .ok (g', policy) ∧
      ofText (g.toPretty policy) = .ok (g', policy) ∧
      g'.nodes = g.nodes ∧ g'.arcs = g.arcs := by
  obtain ⟨g', hg', hnodes, harcs⟩ := g.exists_ofDocument_toDocument policy
  refine ⟨g', ?_, ?_, hnodes, harcs⟩
  · exact ofText_of_decodeText (Inverts.document.decodeText_compact _) hg'
  · exact ofText_of_decodeText (Inverts.document.decodeText_pretty _) hg'

end Graph

end Exchange

end Dataflow

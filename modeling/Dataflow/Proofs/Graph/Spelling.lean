import Dataflow.Graph.Document
import Dataflow.Proofs.Json.Spelling

/-!
# Spellings of a graph document

A graph document is decoded whatever the order of the members in its records, and whichever of the
members with a default are left off (`Respells.document`, with the defaults of `memberDefaults`).
What is written of a document is one of its spellings (`Document.spells_toJson`).

**Records.**  Each decoder respells the encoder of its record, from numbers up to the document.

**Kinds.**  A node keeps the members of its kind until it is complete; they are no members of the
node itself, and they nest few enough containers to be kept (`NodeKind.kept`).  The kind looks its
fields up by name, so their order does not matter, and what holds a default may be missing
(`KindBuffer.kind_of_meets`).
-/

namespace Dataflow

section Defaults

/-- What a member of a graph document is taken to hold where it is left off. -/
def memberDefaults : List (String × Json) :=
  [("signed", .bool false), ("dims", .array []), ("ty", .null), ("period", .null),
    ("inputs", .array []), ("outputs", .array []), ("partition", .null), ("parent", .null),
    ("children", .array []), ("boundaries", .array []), ("domain", .null), ("policy", .null),
    ("base_block_size", wordJson ({} : ChannelPolicy).baseBlockSize),
    ("capacity_multiplier", wordJson ({} : ChannelPolicy).capacityMultiplier),
    ("share_fanout", .bool ({} : ChannelPolicy).shareFanout)]

end Defaults

section Records

theorem wordJson_ne_null (w : UInt32) : wordJson w ≠ .null := nofun

theorem ElemType.toJson_ne_null (t : ElemType) : t.toJson ≠ .null := nofun

theorem Rate.toJson_ne_null (r : Rate) : r.toJson ≠ .null := nofun

theorem ChannelPolicy.toJson_ne_null (p : ChannelPolicy) : p.toJson ≠ .null := nofun

theorem wordJson_inj {w w' : UInt32} : wordJson w = wordJson w' ↔ w = w' := by
  simp [wordJson, Json.nat, UInt32.toNat_inj]

namespace Respells

theorem word : Respells memberDefaults Json.word wordJson := by
  refine leaf (fun w => ?_) nofun nofun
  have hlt : w.toNat < UInt32.size := w.toNat_lt
  simp [Json.word, wordJson, Json.nat, Json.naturalBelow, hlt, Except.map]

theorem halfWord : Respells memberDefaults Json.halfWord fun w => Json.nat w.toNat := by
  refine leaf (fun w => ?_) nofun nofun
  have hlt : w.toNat < UInt16.size := w.toNat_lt
  simp [Json.halfWord, Json.nat, Json.naturalBelow, hlt, Except.map]

theorem flag : Respells memberDefaults Json.flag Json.bool := leaf (fun _ => rfl) nofun nofun

theorem string : Respells memberDefaults Json.string Json.text := leaf (fun _ => rfl) nofun nofun

/-- A number that stands for something is respelled as a word is. -/
theorem wrapped {α : Type} {wrap : UInt32 → α} {val : α → UInt32} (h : ∀ a, wrap (val a) = a) :
    Respells memberDefaults (fun j => j.word.map wrap) fun a => wordJson (val a) := by
  intro a j hj
  have hword : j.word = .ok (val a) := word (val a) j hj
  simp only [hword, Except.map, h]

theorem nodeId : Respells memberDefaults Json.nodeId fun id => wordJson id.val :=
  wrapped fun _ => rfl

theorem arcId : Respells memberDefaults Json.arcId fun id => wordJson id.val := wrapped fun _ => rfl

theorem partitionId : Respells memberDefaults Json.partitionId fun id => wordJson id.val :=
  wrapped fun _ => rfl

theorem optionalNode : Respells memberDefaults (Json.optional Json.nodeId)
    (Json.orNull fun id => wordJson id.val) :=
  nodeId.optional fun id => wordJson_ne_null id.val

theorem optionalPartition : Respells memberDefaults (Json.optional Json.partitionId)
    (Json.orNull fun id => wordJson id.val) :=
  partitionId.optional fun id => wordJson_ne_null id.val

theorem nodeIds : Respells memberDefaults (Json.list Json.nodeId) idsJson := nodeId.list

theorem numericKind : Respells memberDefaults Json.numericKind fun k => Json.text k.text := by
  refine leaf (fun x => ?_) nofun nofun
  cases x <;> rfl

theorem rateChangeKind : Respells memberDefaults
    (Json.name .buffer [("downsample", .downsample), ("upsample", .upsample), ("repeat", .hold)])
      fun k => Json.text (RateChangeKind.text k) := by
  refine leaf (fun x => ?_) nofun nofun
  cases x <;> rfl

theorem ioDirection : Respells memberDefaults (Json.name .buffer [("in", .input), ("out", .output)])
    fun d => Json.text (IoDirection.text d) := by
  refine leaf (fun x => ?_) nofun nofun
  cases x <;> rfl

theorem elemType : Respells memberDefaults Json.elemType ElemType.toJson := by
  intro t j hj
  obtain ⟨l, rfl, honce, hknown, hall⟩ := hj.exists_object (by simp)
  simp only [List.forall_mem_cons] at hall
  obtain ⟨hkind, hbits, hsigned, hdims, -⟩ := hall
  rw [Json.object, Json.elemType, visit_eq honce hknown (fun done => {
    kind := filled done "kind" t.kind, bits := filled done "bits" t.bits
    signed := filled done "signed" t.signed, dims := filled done "dims" t.dims })]
  · have hsigned : (filled l "signed" t.signed).getD false = t.signed :=
      hsigned.getD_filled (by simp [memberDefaults])
    simp [hkind.required_filled (by simp [memberDefaults]),
      hbits.required_filled (by simp [memberDefaults]), hsigned,
      hdims.getD_list (by simp [memberDefaults]), pure, Except.pure]
  · rfl
  · simp only [List.map_cons, List.map_nil, List.forall_mem_cons]
    refine ⟨?_, ?_, ?_, ?_, List.forall_mem_nil _⟩ <;> intro v done hmem hfree
    · simp [numericKind.fill hkind honce hmem hfree, pure, Except.pure]
    · simp [halfWord.fill hbits honce hmem hfree, pure, Except.pure]
    · simp [flag.fill hsigned honce hmem hfree, pure, Except.pure]
    · simp [word.list.fill hdims honce hmem hfree, pure, Except.pure]

theorem rate (origin : Origin) : Respells memberDefaults (Json.rate origin) Rate.toJson := by
  intro r j hj
  obtain ⟨l, rfl, honce, hknown, hall⟩ := hj.exists_object (by simp)
  simp only [List.forall_mem_cons] at hall
  obtain ⟨hup, hdown, -⟩ := hall
  rw [Json.object, Json.rate, visit_eq honce hknown (fun done => {
    up := filled done "up" r.up, down := filled done "down" r.down })]
  · simp [hup.required_filled (by simp [memberDefaults]),
      hdown.required_filled (by simp [memberDefaults]), pure, Except.pure]
  · rfl
  · simp only [List.map_cons, List.map_nil, List.forall_mem_cons]
    refine ⟨?_, ?_, List.forall_mem_nil _⟩ <;> intro v done hmem hfree
    · simp [word.fill hup honce hmem hfree, pure, Except.pure]
    · simp [word.fill hdown honce hmem hfree, pure, Except.pure]

theorem optionalType :
    Respells memberDefaults (Json.optional Json.elemType) (Json.orNull ElemType.toJson) :=
  elemType.optional ElemType.toJson_ne_null

theorem optionalRate :
    Respells memberDefaults (Json.optional (Json.rate .text)) (Json.orNull Rate.toJson) :=
  (rate .text).optional Rate.toJson_ne_null

theorem port : Respells memberDefaults Json.port Port.toJson := by
  intro p j hj
  obtain ⟨l, rfl, honce, hknown, hall⟩ := hj.exists_object (by simp)
  simp only [List.forall_mem_cons] at hall
  obtain ⟨hty, -⟩ := hall
  rw [Json.object, Json.port, visit_eq honce hknown (fun done => { ty := filled done "ty" p.ty })]
  · simp [hty.getD_optional ElemType.toJson_ne_null (by simp [memberDefaults]), pure, Except.pure]
  · rfl
  · simp only [List.map_cons, List.map_nil, List.forall_mem_cons]
    refine ⟨?_, List.forall_mem_nil _⟩
    intro v done hmem hfree
    simp [optionalType.fill hty honce hmem hfree, pure, Except.pure]

theorem portRef : Respells memberDefaults Json.portRef PortRef.toJson := by
  intro p j hj
  obtain ⟨l, rfl, honce, hknown, hall⟩ := hj.exists_object (by simp)
  simp only [List.forall_mem_cons] at hall
  obtain ⟨hnode, hport, -⟩ := hall
  rw [Json.object, Json.portRef, visit_eq honce hknown (fun done => {
    node := filled done "node" p.node, port := filled done "port" p.port })]
  · simp [hnode.required_filled (by simp [memberDefaults]),
      hport.required_filled (by simp [memberDefaults]), pure, Except.pure]
  · rfl
  · simp only [List.map_cons, List.map_nil, List.forall_mem_cons]
    refine ⟨?_, ?_, List.forall_mem_nil _⟩ <;> intro v done hmem hfree
    · simp [nodeId.fill hnode honce hmem hfree, pure, Except.pure]
    · simp [word.fill hport honce hmem hfree, pure, Except.pure]

/-- An end with content is an object of one member, which cannot be left off. -/
theorem arcSink : Respells memberDefaults Json.arcSink ArcSink.toJson := by
  intro s j hj
  cases s with
  | unconnected =>
      rw [Json.Spells.eq_text hj]
      rfl
  | port p =>
      obtain ⟨l, rfl, honce, hknown, hall⟩ := hj.exists_object (by simp)
      simp only [List.forall_mem_cons] at hall
      obtain ⟨v, rfl, hv⟩ := hall.1.eq_singleton honce hknown (by simp [memberDefaults])
      simp [Json.object, Fields.ofList, Json.arcSink, Json.choice, Fields.close, portRef p v hv,
        Except.map, pure, Except.pure]

theorem arc : Respells memberDefaults Json.arc fun a => a.2.toJson a.1 := by
  intro a j hj
  obtain ⟨l, rfl, honce, hknown, hall⟩ := hj.exists_object (by simp)
  simp only [List.forall_mem_cons] at hall
  obtain ⟨hid, hsrc, hdst, hty, hperiod, -⟩ := hall
  rw [Json.object, Json.arc, visit_eq honce hknown (fun done => {
    id := filled done "id" a.1, src := filled done "src" a.2.src, dst := filled done "dst" a.2.dst
    ty := filled done "ty" a.2.ty, period := filled done "period" a.2.period })]
  · simp [hid.required_filled (by simp [memberDefaults]),
      hsrc.required_filled (by simp [memberDefaults]),
      hdst.required_filled (by simp [memberDefaults]),
      hty.getD_optional ElemType.toJson_ne_null (by simp [memberDefaults]),
      hperiod.getD_optional Rate.toJson_ne_null (by simp [memberDefaults]), pure, Except.pure]
  · rfl
  · simp only [List.map_cons, List.map_nil, List.forall_mem_cons]
    refine ⟨?_, ?_, ?_, ?_, ?_, List.forall_mem_nil _⟩ <;> intro v done hmem hfree
    · simp [arcId.fill hid honce hmem hfree, pure, Except.pure]
    · simp [portRef.fill hsrc honce hmem hfree, pure, Except.pure]
    · simp [arcSink.fill hdst honce hmem hfree, pure, Except.pure]
    · simp [optionalType.fill hty honce hmem hfree, pure, Except.pure]
    · simp [optionalRate.fill hperiod honce hmem hfree, pure, Except.pure]

theorem policy : Respells memberDefaults Json.policy ChannelPolicy.toJson := by
  intro p j hj
  obtain ⟨l, rfl, honce, hknown, hall⟩ := hj.exists_object (by simp)
  simp only [List.forall_mem_cons] at hall
  obtain ⟨hblock, hroom, hshare, -⟩ := hall
  rw [Json.object, Json.policy, visit_eq honce hknown (fun done => {
    baseBlockSize := filled done "base_block_size" p.baseBlockSize
    capacityMultiplier := filled done "capacity_multiplier" p.capacityMultiplier
    shareFanout := filled done "share_fanout" p.shareFanout })]
  · have hblock : (filled l "base_block_size" p.baseBlockSize).getD 1 = p.baseBlockSize :=
      hblock.getD_filled (by simp [memberDefaults, wordJson_inj])
    have hroom :
        (filled l "capacity_multiplier" p.capacityMultiplier).getD 2 = p.capacityMultiplier :=
      hroom.getD_filled (by simp [memberDefaults, wordJson_inj])
    have hshare : (filled l "share_fanout" p.shareFanout).getD false = p.shareFanout :=
      hshare.getD_filled (by simp [memberDefaults])
    simp [ChannelPolicy.override, hblock, hroom, hshare, pure, Except.pure]
  · rfl
  · simp only [List.map_cons, List.map_nil, List.forall_mem_cons]
    refine ⟨?_, ?_, ?_, List.forall_mem_nil _⟩ <;> intro v done hmem hfree
    · simp [word.fill hblock honce hmem hfree, pure, Except.pure]
    · simp [word.fill hroom honce hmem hfree, pure, Except.pure]
    · simp [flag.fill hshare honce hmem hfree, pure, Except.pure]

theorem optionalPolicy :
    Respells memberDefaults (Json.optional Json.policy) (Json.orNull ChannelPolicy.toJson) :=
  policy.optional ChannelPolicy.toJson_ne_null

end Respells

end Records

section Kinds

variable {α : Type} {decode : Json → Decoded α} {buffer : KindBuffer} {key : String}
  {v : Json} {a : α}

theorem KindBuffer.find?_of_mem (honce : (buffer.map Prod.fst).Nodup) (hv : (key, v) ∈ buffer) :
    KindBuffer.find? buffer key = .ok (some v) := by
  have hone : buffer.filter (·.1 = key) = [(key, v)] := by
    refine eq_singleton_of_key (honce.sublist (List.filter_sublist.map _)) ?_ ?_
    · exact List.mem_filter.mpr ⟨hv, decide_eq_true rfl⟩
    · intro m hm
      exact of_decide_eq_true (List.mem_filter.mp hm).2
  rw [KindBuffer.find?, hone]

theorem KindBuffer.find?_of_not_mem (hno : key ∉ buffer.map Prod.fst) :
    KindBuffer.find? buffer key = .ok none := by
  have hnone : buffer.filter (·.1 = key) = [] := by
    rw [List.filter_eq_nil_iff]
    intro m hm hkey
    exact hno (List.mem_map.mpr ⟨m, hm, of_decide_eq_true hkey⟩)
  rw [KindBuffer.find?, hnone]

namespace Meets

theorem get (h : Meets memberDefaults buffer (key, v)) (honce : (buffer.map Prod.fst).Nodup)
    (hno : (key, v) ∉ memberDefaults)
    (hdecode : ∀ v', v.Spells memberDefaults v' → decode v' = .ok a) :
    KindBuffer.get buffer key decode = .ok a := by
  obtain ⟨v', hv', hspells⟩ | ⟨-, hdefault⟩ := h
  · rw [KindBuffer.get, KindBuffer.find?_of_mem honce hv']
    exact hdecode v' hspells
  · exact absurd hdefault hno

theorem getOr (h : Meets memberDefaults buffer (key, v)) (honce : (buffer.map Prod.fst).Nodup)
    {default : α} (hdefault : (key, v) ∈ memberDefaults → a = default)
    (hdecode : ∀ v', v.Spells memberDefaults v' → decode v' = .ok a) :
    KindBuffer.getOr buffer key default decode = .ok a := by
  obtain ⟨v', hv', hspells⟩ | ⟨hkey, hmem⟩ := h
  · rw [KindBuffer.getOr, KindBuffer.find?_of_mem honce hv']
    exact hdecode v' hspells
  · rw [KindBuffer.getOr, KindBuffer.find?_of_not_mem hkey, hdefault hmem]
    rfl

end Meets

namespace KindBuffer

theorem rateChange_of_meets {change : RateChange} (honce : (buffer.map Prod.fst).Nodup)
    (hkind : Meets memberDefaults buffer ("kind", .text change.kind.text))
    (hratio : Meets memberDefaults buffer ("ratio", wordJson change.ratio)) :
    KindBuffer.rateChange buffer = .ok change := by
  rw [KindBuffer.rateChange, hkind.get honce (by simp [memberDefaults])
    (Respells.rateChangeKind change.kind),
    hratio.get honce (by simp [memberDefaults]) (Respells.word change.ratio)]
  rfl

/-- A kind is found among its name and its fields, in any spelling. -/
theorem kind_of_meets {kind : NodeKind} (honce : (buffer.map Prod.fst).Nodup)
    (hall : ∀ m ∈ ("type", Json.text kind.tag) :: kind.fields, Meets memberDefaults buffer m) :
    KindBuffer.kind buffer = .ok kind := by
  obtain ⟨htype, hall⟩ := List.forall_mem_cons.mp hall
  have htag : KindBuffer.get buffer "type" Json.kindTag = .ok kind.tag := by
    refine htype.get honce (by simp [memberDefaults]) fun v hv => ?_
    rw [hv.eq_text]
    cases kind <;> rfl
  rw [KindBuffer.kind, htag]
  cases kind with
  | primitive op =>
      simp only [NodeKind.fields, List.forall_mem_cons] at hall
      simp only [ok_bind, NodeKind.tag]
      rw [hall.1.get honce (by simp [memberDefaults]) (Respells.string op)]
      rfl
  | subsystem children =>
      simp only [NodeKind.fields, List.forall_mem_cons] at hall
      simp only [ok_bind, NodeKind.tag]
      rw [hall.1.getOr honce (by simp [memberDefaults, idsJson]) (Respells.nodeIds children)]
      rfl
  | clockDomain rate children boundaries =>
      simp only [NodeKind.fields, List.forall_mem_cons] at hall
      obtain ⟨hrate, hchildren, hboundaries, -⟩ := hall
      simp only [ok_bind, NodeKind.tag]
      rw [hrate.get honce (by simp [memberDefaults]) (Respells.rate .buffer rate),
        hchildren.getOr honce (by simp [memberDefaults, idsJson]) (Respells.nodeIds children),
        hboundaries.getOr honce (by simp [memberDefaults, idsJson]) (Respells.nodeIds boundaries)]
      rfl
  | rateInput change =>
      simp only [NodeKind.fields, List.forall_mem_cons] at hall
      simp only [ok_bind, NodeKind.tag]
      rw [rateChange_of_meets honce hall.1 hall.2.1]
      rfl
  | rateOutput change =>
      simp only [NodeKind.fields, List.forall_mem_cons] at hall
      simp only [ok_bind, NodeKind.tag]
      rw [rateChange_of_meets honce hall.1 hall.2.1]
      rfl
  | channel spec =>
      simp only [NodeKind.fields, List.forall_mem_cons] at hall
      obtain ⟨hcapacity, hblock, hdomain, -⟩ := hall
      have hnone : ("domain", Json.orNull (fun d => wordJson d.val) spec.domain) ∈ memberDefaults →
          spec.domain = none := by
        intro h
        exact (Json.orNull_eq_null fun d => wordJson_ne_null d.val).mp
          (by simpa [memberDefaults] using h)
      simp only [ok_bind, NodeKind.tag]
      rw [hcapacity.get honce (by simp [memberDefaults]) (Respells.word spec.capacity),
        hblock.get honce (by simp [memberDefaults]) (Respells.word spec.blockSize),
        hdomain.getOr honce hnone (Respells.optionalNode spec.domain)]
      rfl
  | externalIo ep =>
      simp only [NodeKind.fields, List.forall_mem_cons] at hall
      obtain ⟨hbundle, hdirection, hmember, -⟩ := hall
      simp only [ok_bind, NodeKind.tag]
      rw [hbundle.get honce (by simp [memberDefaults]) (Respells.string ep.bundle),
        hdirection.get honce (by simp [memberDefaults]) (Respells.ioDirection ep.direction),
        hmember.get honce (by simp [memberDefaults]) (Respells.word ep.member)]
      rfl

end KindBuffer

end Kinds

section Documents

theorem Json.check_wordJson (room : Nat) (w : UInt32) : (wordJson w).check room = .ok () := by
  have hlt : w.toNat < UInt64.size := Nat.lt_trans w.toNat_lt (by decide)
  simp [wordJson, Json.nat, Json.check, Number.inRange, hlt]

theorem Json.check_idsJson (room : Nat) (ids : List NodeId) :
    (idsJson ids).check (room + 1) = .ok () :=
  Json.check_array.mpr (by simp [Json.check_wordJson])

theorem Json.check_rate (room : Nat) (r : Rate) : r.toJson.check (room + 1) = .ok () :=
  Json.check_object.mpr (by simp [Json.check_wordJson])

namespace NodeKind

/-- The name and the fields of a kind are no members of a node, and they nest little enough to be
kept. -/
theorem kept (kind : NodeKind) : ∀ m ∈ ("type", Json.text kind.tag) :: kind.fields,
    m.1 ∉ ["id", "name", "inputs", "outputs", "partition", "parent"] ∧
      m.2.check kindRoom = .ok () := by
  have hids : ∀ ids, (idsJson ids).check kindRoom = .ok () := Json.check_idsJson 123
  have hrate : ∀ r : Rate, r.toJson.check kindRoom = .ok () := Json.check_rate 123
  have hword := Json.check_wordJson kindRoom
  have htext : ∀ s, (Json.text s).check kindRoom = .ok () := fun _ => rfl
  cases kind with
  | channel spec =>
      have hdomain :
          (Json.orNull (fun d => wordJson d.val) spec.domain).check kindRoom = .ok () := by
        cases spec.domain with
        | none => rfl
        | some d => exact hword d.val
      simp [fields, hword, hdomain, htext]
  | _ => simp [fields, hids, hrate, hword, htext]

end NodeKind

/-- The members of a node: two of its own, those of its kind, and four of its own. -/
theorem Node.toJson_eq (id : NodeId) (n : Node) :
    n.toJson id = .object (("id", wordJson id.val) :: ("name", .text n.name) ::
      ((("type", .text n.kind.tag) :: n.kind.fields) ++
        [("inputs", .array (n.inputs.map Port.toJson)),
          ("outputs", .array (n.outputs.map Port.toJson)),
          ("partition", Json.orNull (fun p => wordJson p.val) n.partition),
          ("parent", Json.orNull (fun p => wordJson p.val) n.parent)])) := by
  simp [Node.toJson]

/-- Members of a node that its kind owns. -/
def kindMembers (l : List (String × Json)) : KindBuffer :=
  l.filter fun m => m.1 ∉ ["id", "name", "inputs", "outputs", "partition", "parent"]

theorem kindMembers_append {done : List (String × Json)} {key : String} {v : Json}
    (hkey : key ∉ ["id", "name", "inputs", "outputs", "partition", "parent"]) :
    kindMembers (done ++ [(key, v)]) = kindMembers done ++ [(key, v)] := by
  simp only [kindMembers, List.filter_append, List.filter_cons, hkey, not_false_eq_true,
    decide_true, if_true, List.filter_nil]

theorem Meets.kindMembers {l : List (String × Json)} {m : String × Json}
    (h : Meets memberDefaults l m)
    (hkey : m.1 ∉ ["id", "name", "inputs", "outputs", "partition", "parent"]) :
    Meets memberDefaults (kindMembers l) m := by
  obtain ⟨v, hv, hspells⟩ | ⟨hno, hdefault⟩ := h
  · exact .inl ⟨v, List.mem_filter.mpr ⟨hv, decide_eq_true hkey⟩, hspells⟩
  · exact .inr ⟨fun hmem => hno ((List.filter_sublist.map _).subset hmem), hdefault⟩

namespace Respells

theorem node : Respells memberDefaults Json.node fun n => n.2.toJson n.1 := by
  intro n j hj
  dsimp only at hj
  rw [Node.toJson_eq] at hj
  obtain ⟨l, rfl, honce, hknown, hall⟩ :=
    hj.exists_object (by cases n.2.kind <;> simp [NodeKind.fields])
  simp only [List.forall_mem_cons, List.forall_mem_append] at hall
  obtain ⟨hid, hname, ⟨hkind, hfields⟩, hinputs, houtputs, hpartition, hparent, -⟩ := hall
  have hall : ∀ m ∈ ("type", Json.text n.2.kind.tag) :: n.2.kind.fields, Meets memberDefaults l m :=
    List.forall_mem_cons.mpr ⟨hkind, hfields⟩
  rw [Json.object, Json.node, visit_eq honce hknown (fun done => {
    id := filled done "id" n.1, name := filled done "name" n.2.name
    inputs := filled done "inputs" n.2.inputs, outputs := filled done "outputs" n.2.outputs
    partition := filled done "partition" n.2.partition, parent := filled done "parent" n.2.parent
    kind := kindMembers done })]
  · have hkind : KindBuffer.kind (kindMembers l) = .ok n.2.kind :=
      KindBuffer.kind_of_meets (honce.sublist (List.filter_sublist.map _)) fun m hm =>
        (hall m hm).kindMembers (n.2.kind.kept m hm).1
    simp [hid.required_filled (by simp [memberDefaults]),
      hname.required_filled (by simp [memberDefaults]),
      hinputs.getD_list (by simp [memberDefaults]), houtputs.getD_list (by simp [memberDefaults]),
      hpartition.getD_optional (fun p => wordJson_ne_null p.val) (by simp [memberDefaults]),
      hparent.getD_optional (fun p => wordJson_ne_null p.val) (by simp [memberDefaults]), hkind,
      pure, Except.pure]
  · rfl
  · rw [List.map_cons, List.map_cons, List.map_append]
    refine List.forall_mem_cons.mpr ⟨?_, List.forall_mem_cons.mpr
      ⟨?_, List.forall_mem_append.mpr ⟨?_, ?_⟩⟩⟩
    · intro v done hmem hfree
      simp [nodeId.fill hid honce hmem hfree, kindMembers, pure, Except.pure]
    · intro v done hmem hfree
      simp [string.fill hname honce hmem hfree, kindMembers, pure, Except.pure]
    · -- What the kind owns is kept as it stands, and taken apart at the end.
      intro k hk v done hmem hfree
      obtain ⟨m, hm, rfl⟩ := List.mem_map.mp hk
      obtain ⟨hkey, hcheck⟩ := n.2.kind.kept m hm
      have hv : v.check kindRoom = .ok () := ((hall m hm).spells honce hmem).check hcheck
      have hother : ∀ own ∈ ["id", "name", "inputs", "outputs", "partition", "parent"], own ≠ m.1 :=
        fun own hown heq => hkey (heq ▸ hown)
      simp only [List.forall_mem_cons] at hother
      split
      case h_7 => simp [hv, kindMembers_append hkey, hother, pure, Except.pure]
      all_goals
        rename_i heq
        simp [heq] at hkey
    · simp only [List.map_cons, List.map_nil, List.forall_mem_cons]
      refine ⟨?_, ?_, ?_, ?_, List.forall_mem_nil _⟩ <;> intro v done hmem hfree
      · simp [port.list.fill hinputs honce hmem hfree, kindMembers, pure, Except.pure]
      · simp [port.list.fill houtputs honce hmem hfree, kindMembers, pure, Except.pure]
      · simp [optionalPartition.fill hpartition honce hmem hfree, kindMembers, pure, Except.pure]
      · simp [optionalNode.fill hparent honce hmem hfree, kindMembers, pure, Except.pure]

end Respells

/-- A document as an object with all its members. -/
def Document.record (d : Document) : Json :=
  .object [("nodes", .array (d.nodes.map fun n => n.2.toJson n.1)),
    ("arcs", .array (d.arcs.map fun a => a.2.toJson a.1)),
    ("policy", Json.orNull ChannelPolicy.toJson d.policy)]

/-- What is written of a document is one of its spellings. -/
theorem Document.spells_toJson (d : Document) : d.record.Spells memberDefaults d.toJson := by
  obtain ⟨nodes, arcs, policy⟩ := d
  cases policy with
  | none => exact .of_subset (by simp) (by simp) (by simp) (by simp [memberDefaults, Json.orNull])
  | some p => exact .same _

theorem Respells.document : Respells memberDefaults Json.document Document.record := by
  intro d j hj
  obtain ⟨l, rfl, honce, hknown, hall⟩ := hj.exists_object (by simp)
  simp only [List.forall_mem_cons] at hall
  obtain ⟨hnodes, harcs, hpolicy, -⟩ := hall
  rw [Json.object, Json.document, visit_eq honce hknown (fun done => {
    nodes := filled done "nodes" d.nodes, arcs := filled done "arcs" d.arcs
    policy := filled done "policy" d.policy })]
  · simp [hnodes.required_filled (by simp [memberDefaults]),
      harcs.required_filled (by simp [memberDefaults]),
      hpolicy.getD_optional ChannelPolicy.toJson_ne_null (by simp [memberDefaults]), pure,
      Except.pure]
  · rfl
  · simp only [List.map_cons, List.map_nil, List.forall_mem_cons]
    refine ⟨?_, ?_, ?_, List.forall_mem_nil _⟩ <;> intro v done hmem hfree
    · simp [node.list.fill hnodes honce hmem hfree, pure, Except.pure]
    · simp [arc.list.fill harcs honce hmem hfree, pure, Except.pure]
    · simp [optionalPolicy.fill hpolicy honce hmem hfree, pure, Except.pure]

end Documents

end Dataflow

import Dataflow.Proofs.Bundle.Codec
import Dataflow.Proofs.Channel.Table

/-!
# Rows of blocks

A bundle moves one block through each of its channels at a time.  What is on its way in the channels
is therefore a list of rows, each of which has a block for every channel.

**Results.**
* `Carries.push`, `Carries.pop`, `Carries.close`: rows go in at the back and come out at the front,
  and closing the channels keeps them.
* `Carries.hasData_iff`: one channel has a block exactly where all have one.
* `writeMembers_eq`, `readMembers_eq`: a bundle writes the blocks of all its members at once, and
  reads them at once.
-/

namespace Dataflow

section Rows

/-- A block for every channel. -/
abbrev Row (α : Type) := NodeId → List α

namespace ChannelTable

variable {α : Type} {ch : ChannelTable α} {ids : List NodeId} {size : NodeId → Nat}
  {state : ChannelState} {rows : List (Row α)} {row : Row α} {id : NodeId}

/-- The channels `ids` have the same rows on their way, each its own block of every row. -/
structure Carries [Inhabited α] (ch : ChannelTable α) (ids : List NodeId) (size : NodeId → Nat)
    (state : ChannelState) (rows : List (Row α)) : Prop where
  channel : ∀ id ∈ ids, ∃ c, ch[id]? = some c ∧ c.Live ∧ c.state = state ∧ c.block = size id ∧
    c.contents = rows.flatMap (· id)
  sized : ∀ row ∈ rows, ∀ id ∈ ids, (row id).length = size id

theorem length_column (h : ∀ row ∈ rows, (row id).length = size id) :
    (rows.flatMap (· id)).length = rows.length * size id := by
  induction rows with
  | nil => simp
  | cons row rest ih =>
      rw [List.flatMap_cons, List.length_append, h row List.mem_cons_self,
        ih fun r hr => h r (List.mem_cons_of_mem _ hr), List.length_cons, Nat.succ_mul,
        Nat.add_comm]

variable [Inhabited α]

theorem Carries.available_eq (h : ch.Carries ids size state rows) (hid : id ∈ ids) {c : Channel α}
    (hc : ch[id]? = some c) : c.available = rows.length * c.block := by
  obtain ⟨c', hc', hlive, -, hblock, hcontents⟩ := h.channel id hid
  cases hc.symm.trans hc'
  rw [← hlive.sound.length_contents, hcontents, hblock]
  exact length_column fun row hrow => h.sized row hrow id hid

theorem Carries.isClosed_iff (h : ch.Carries ids size state rows) (hid : id ∈ ids) :
    ch.isClosed id = true ↔ state = .closed := by
  obtain ⟨c, hc, -, hstate, -⟩ := h.channel id hid
  simp [isClosed, hc, Channel.isClosed, hstate]

/-- A channel has a block as long as there is a row. -/
theorem Carries.hasData_iff (h : ch.Carries ids size state rows) (hid : id ∈ ids)
    (hstate : state = .steady ∨ state = .closed) : ch.hasData id = true ↔ rows ≠ [] := by
  obtain ⟨c, hc, hlive, hc', -⟩ := h.channel id hid
  have hpos := hlive.sound.block_pos
  have hopen : (decide (c.state = .steady) || decide (c.state = .closed)) = true := by
    simpa [hc'] using hstate
  rw [hasData, hc]
  simp only [Channel.hasData, hopen, Bool.true_and, decide_eq_true_eq, h.available_eq hid hc]
  cases rows with
  | nil => simp; omega
  | cons row rest =>
      simp only [List.length_cons, ne_eq, reduceCtorEq, not_false_eq_true, iff_true]
      exact Nat.le_mul_of_pos_left _ (Nat.succ_pos _)

theorem Carries.holds (h : ch.Carries ids size state (row :: rows)) (hid : id ∈ ids) :
    ch.Holds id := by
  obtain ⟨c, hc, hlive, -⟩ := h.channel id hid
  refine ⟨c, hc, hlive, ?_⟩
  rw [h.available_eq hid hc]
  exact Nat.le_mul_of_pos_left _ (Nat.succ_pos _)

theorem Carries.blockOf_eq (h : ch.Carries ids size state rows) (hid : id ∈ ids) :
    ch.blockOf id = size id := by
  obtain ⟨c, hc, -, -, hblock, -⟩ := h.channel id hid
  rw [blockOf_of_getElem? hc, hblock]

theorem Carries.accepts (h : ch.Carries ids size state rows) (hid : id ∈ ids)
    (hroom : ch.hasRoom id = true) : ch.Accepts id := by
  obtain ⟨c, hc, hlive, -⟩ := h.channel id hid
  rw [hasRoom, hc] at hroom
  exact ⟨c, hc, hlive, hroom⟩

/-- A row that is put into the channels goes behind the others. -/
theorem Carries.push {ch' : ChannelTable α} (h : ch.Carries ids size state rows)
    (hroom : ∀ id ∈ ids, ch.hasRoom id = true) (hrow : ∀ id ∈ ids, (row id).length = size id)
    (hput : ∀ id ∈ ids, ch'[id]? = ch[id]?.map (Channel.put · (row id))) :
    ch'.Carries ids size state (rows ++ [row]) := by
  refine ⟨?_, ?_⟩
  · intro id hid
    obtain ⟨c, hc, hlive, hstate, hblock, hcontents⟩ := h.channel id hid
    have hfree : c.hasRoom = true := by
      have hfree := hroom id hid
      rwa [hasRoom, hc] at hfree
    refine ⟨c.put (row id), ?_, hlive.put hfree, ?_, ?_, ?_⟩
    · rw [hput id hid, hc]
      rfl
    · rw [Channel.state_put, hstate]
    · rw [Channel.block_put, hblock]
    · rw [hlive.contents_put hfree ((hrow id hid).trans hblock.symm), hcontents,
        List.flatMap_append, List.flatMap_singleton]
  · intro r hr id hid
    rcases List.mem_append.mp hr with hr | hr
    · exact h.sized r hr id hid
    · rw [List.mem_singleton.mp hr]
      exact hrow id hid

/-- The first row is taken from the channels. -/
theorem Carries.pop (h : ch.Carries ids size state (row :: rows)) (hnodup : ids.Nodup) :
    (ch.popAll ids).Carries ids size state rows := by
  refine ⟨?_, fun r hr => h.sized r (List.mem_cons_of_mem _ hr)⟩
  intro id hid
  obtain ⟨c, hc, hlive, hstate, hblock, hcontents⟩ := h.channel id hid
  obtain ⟨c', hc', -, hdata⟩ := h.holds hid
  cases hc.symm.trans hc'
  have hrow : (row id).length = c.block := (h.sized row List.mem_cons_self id hid).trans hblock.symm
  refine ⟨c.popped, ?_, hlive.popped hdata, hstate, hblock, ?_⟩
  · rw [getElem?_popAll hnodup, if_pos hid, hc]
    rfl
  · rw [hlive.contents_popped hdata, hcontents, List.flatMap_cons, List.drop_left' hrow]

theorem Carries.head_eq (h : ch.Carries ids size state (row :: rows)) (hid : id ∈ ids) :
    ch.head id = row id := by
  obtain ⟨c, hc, -, -, hblock, hcontents⟩ := h.channel id hid
  have hrow := h.sized row List.mem_cons_self id hid
  rw [head, contentsOf_of_getElem? hc, blockOf_of_getElem? hc, hcontents, hblock, List.flatMap_cons,
    List.take_left' hrow]

theorem Carries.close (h : ch.Carries ids size state rows) :
    (ch.closeAll ids).Carries ids size .closed rows := by
  refine ⟨?_, h.sized⟩
  intro id hid
  obtain ⟨c, hc, hlive, -, hblock, hcontents⟩ := h.channel id hid
  refine ⟨c.close, ?_, hlive.close, rfl, hblock,
    Channel.sameQueue_close.contents_eq.trans hcontents⟩
  rw [getElem?_closeAll, if_pos hid, hc]
  rfl

end ChannelTable

end Rows

section Blocks

variable {α : Type}

theorem lookup_of_mem {pairs : List (NodeId × List α)} {id : NodeId} {block : List α}
    (hnodup : (pairs.map Prod.fst).Nodup) (h : (id, block) ∈ pairs) :
    pairs.lookup id = some block := by
  induction pairs with
  | nil => cases h
  | cons pair rest ih =>
      obtain ⟨d, b⟩ := pair
      obtain ⟨hd, hrest⟩ := List.nodup_cons.mp hnodup
      rw [List.lookup_cons]
      rcases List.mem_cons.mp h with heq | hmem
      · cases heq
        simp
      · have hne : (id == d) = false := by
          refine beq_false_of_ne ?_
          rintro rfl
          exact hd (List.mem_map.mpr ⟨_, hmem, rfl⟩)
        rw [hne]
        exact ih hrest hmem

theorem ChannelTable.isClosed_putAll {table : ChannelTable α} {id : NodeId}
    {blocks : List (NodeId × List α)} : (table.putAll blocks).isClosed id = table.isClosed id := by
  induction blocks generalizing table with
  | nil => rfl
  | cons b rest ih =>
      rw [putAll_cons, ih]
      unfold isClosed
      rw [getElem?_change]
      by_cases hid : b.1 = id
      · cases table[id]? <;> simp [hid, Channel.isClosed]
      · simp [hid]

end Blocks

section Members

variable {t : SampleType} {ch : ChannelTable (Sample t)}

/-- Where every channel has room, a block is written to all of them. -/
theorem InputBundle.writeTo_eq {block : List (Sample t)} {ids : List NodeId} (hnodup : ids.Nodup)
    (haccepts : ∀ id ∈ ids, ch.Accepts id) (hsize : ∀ id ∈ ids, block.length = ch.blockOf id) :
    writeTo block ids ch = (.ok (), ch.putAll (ids.map fun id => (id, block))) := by
  induction ids generalizing ch with
  | nil => rfl
  | cons id rest ih =>
      obtain ⟨hid, hrest⟩ := List.nodup_cons.mp hnodup
      have hne : ∀ d ∈ rest, id ≠ d := fun d hd heq => hid (heq ▸ hd)
      obtain ⟨c, hc, hlive, hroom⟩ := haccepts id List.mem_cons_self
      have hlength : block.length = c.block := by
        rw [hsize id List.mem_cons_self, ChannelTable.blockOf_of_getElem? hc]
      have hwrite := ChannelTable.tryWrite_eq_done hc hlive hroom hlength
      have hgo := @ih (ch.change id (Channel.put · block)) hrest
        (fun d hd => (haccepts d (List.mem_cons_of_mem _ hd)).change (hne d hd))
        (fun d hd => (hsize d (List.mem_cons_of_mem _ hd)).trans
          (ChannelTable.blockOf_change fun _ => Channel.block_put).symm)
      simp only [writeTo, hwrite, expectDone, hgo, List.map_cons, ChannelTable.putAll_cons]

/-- Blocks that go to other channels do not touch a channel. -/
theorem ChannelTable.Accepts.putAll {α : Type} {ch : ChannelTable α}
    {blocks : List (NodeId × List α)} {id : NodeId} (h : ch.Accepts id)
    (hid : id ∉ blocks.map Prod.fst) : (ch.putAll blocks).Accepts id := by
  induction blocks generalizing ch with
  | nil => exact h
  | cons b rest ih =>
      rw [List.map_cons, List.mem_cons, not_or] at hid
      exact ih (h.change (Ne.symm hid.1)) hid.2

/-- Where all channels have room, every member writes its block. -/
theorem InputBundle.writeMembers_eq {members : List (InputMember t)}
    (hnodup : (members.flatMap InputMember.outputs).Nodup)
    (haccepts : ∀ m ∈ members, ∀ id ∈ m.outputs, ch.Accepts id)
    (hsize : ∀ m ∈ members, ∀ id ∈ m.outputs, m.block.length = ch.blockOf id) :
    writeMembers members ch =
      (.ok (), ch.putAll (members.flatMap fun m => m.outputs.map fun id => (id, m.block))) := by
  induction members generalizing ch with
  | nil => rfl
  | cons m rest ih =>
      rw [List.flatMap_cons, List.nodup_append] at hnodup
      obtain ⟨hfirst, hrest, hdisjoint⟩ := hnodup
      have hwrite := writeTo_eq hfirst (haccepts m List.mem_cons_self) (hsize m List.mem_cons_self)
      have hgo := @ih (ch.putAll (m.outputs.map fun id => (id, m.block))) hrest
        (by
          intro n hn id hid
          refine (haccepts n (List.mem_cons_of_mem _ hn) id hid).putAll ?_
          simp only [List.map_map, Function.comp_def, List.map_id']
          intro hmem
          exact hdisjoint id hmem id (List.mem_flatMap.mpr ⟨n, hn, hid⟩) rfl)
        (by
          intro n hn id hid
          rw [ChannelTable.blockOf_putAll]
          exact hsize n (List.mem_cons_of_mem _ hn) id hid)
      simp only [writeMembers, hwrite, hgo, List.flatMap_cons, ChannelTable.putAll_append]

/-- Where all channels have a block, every member reads its own. -/
theorem OutputBundle.readMembers_eq {members : List (OutputMember t)}
    (hnodup : (members.map OutputMember.input).Nodup)
    (hholds : ∀ m ∈ members, ch.Holds m.input)
    (hsize : ∀ m ∈ members, m.block.length = ch.blockOf m.input) :
    readMembers members ch =
      (.ok (), members.map (fun m => { m with block := ch.head m.input }),
        ch.popAll (members.map OutputMember.input)) := by
  induction members generalizing ch with
  | nil => rfl
  | cons m rest ih =>
      obtain ⟨hm, hrest⟩ := List.nodup_cons.mp hnodup
      have hne : ∀ n ∈ rest, m.input ≠ n.input := by
        intro n hn heq
        exact hm (List.mem_map.mpr ⟨n, hn, heq.symm⟩)
      obtain ⟨c, hc, hlive, hdata⟩ := hholds m List.mem_cons_self
      have hlength : m.block.length = c.block := by
        rw [hsize m List.mem_cons_self, ChannelTable.blockOf_of_getElem? hc]
      have hread := ChannelTable.tryRead_eq_done hc hlive hdata hlength
      have hgo := ih hrest
        (fun n hn => (hholds n (List.mem_cons_of_mem _ hn)).change (hne n hn))
        (fun n hn => (hsize n (List.mem_cons_of_mem _ hn)).trans
          (ChannelTable.blockOf_change fun _ => Channel.block_popped).symm)
      have hheads :
          (rest.map fun n => { n with block := (ch.change m.input Channel.popped).head n.input }) =
          rest.map fun n => { n with block := ch.head n.input } :=
        List.map_congr_left fun n hn => by rw [ChannelTable.head_change_of_ne (hne n hn)]
      rw [hheads] at hgo
      simp only [readMembers, hread, expectDone, hgo, List.map_cons, ChannelTable.popAll_cons]

end Members

end Dataflow

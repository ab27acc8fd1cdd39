import Dataflow.Channel.Table
import Dataflow.Proofs.Channel.Call
import Mathlib.Data.List.Nodup

/-!
# Transfers in a table of channels

A channel whose ring is there and in order (`Channel.Live`) moves a block whenever it has one or has
room for one.  In a table, a transfer changes the channel it is about and no other.

**Results.**
* `Live.tryRead`, `Live.tryWrite`: what a transfer that can take place does.
* `live_of_isFresh`, `isFresh_of_createAttached`: a channel is live and empty once its two sides
  have met.
* `getElem?_popAll`, `getElem?_putAll`, `getElem?_closeAll`: the table after a block was taken from
  each of several channels, after blocks were put into them, and after they were closed.
-/

namespace Dataflow

namespace Channel

section Defs

variable {α : Type}

/-- The ring is there and in order. -/
structure Live (c : Channel α) : Prop where
  sound : c.Sound
  ring : ∃ ring, c.ring = some ring

/-- The channel after a block was put behind the others. -/
def put (c : Channel α) (block : List α) : Channel α :=
  match c.ring with
  | some ring => c.pushed ring block
  | none => c

end Defs

section Fields

variable {α : Type} {c : Channel α} {block : List α}

@[simp] theorem block_popped : c.popped.block = c.block := rfl

@[simp] theorem capacity_popped : c.popped.capacity = c.capacity := rfl

@[simp] theorem state_popped : c.popped.state = c.state := rfl

@[simp] theorem available_popped : c.popped.available = c.available - c.block := rfl

@[simp] theorem block_put : (c.put block).block = c.block := by
  unfold put
  cases c.ring <;> rfl

@[simp] theorem state_put : (c.put block).state = c.state := by
  unfold put
  cases c.ring <;> rfl

theorem close_close : c.close.close = c.close := rfl

theorem sameQueue_close : SameQueue c c.close := ⟨rfl, rfl, rfl, rfl, rfl, rfl⟩

/-- Where there is room, there is room after a block was taken. -/
theorem hasRoom_popped (h : c.hasRoom = true) : c.popped.hasRoom = true := by
  simp only [hasRoom, Bool.and_eq_true, decide_eq_true_eq] at h ⊢
  refine ⟨h.1, ?_⟩
  have hroom := h.2
  rw [block_popped, capacity_popped, available_popped]
  omega

end Fields

section Transfers

variable {α : Type} {c : Channel α} {block : List α}

theorem Live.close (h : c.Live) : c.close.Live := ⟨sameQueue_close.sound h.sound, h.ring⟩

theorem Live.popped (h : c.Live) (hdata : c.block ≤ c.available) : c.popped.Live :=
  ⟨h.sound.pop hdata, h.ring⟩

theorem room_of_hasRoom (h : c.hasRoom = true) : c.block ≤ c.capacity - c.available := by
  simp only [hasRoom, Bool.and_eq_true, decide_eq_true_eq] at h
  exact h.2

/-- Where there is room, a block is written. -/
theorem Live.tryWrite (h : c.Live) (hroom : c.hasRoom = true) (hlength : block.length = c.block) :
    c.tryWrite block = (.ok .done, c.put block) := by
  obtain ⟨ring, hring⟩ := h.ring
  simp only [hasRoom, Bool.and_eq_true, decide_eq_true_eq] at hroom
  simp [Channel.tryWrite, hlength, hroom.1, Nat.not_lt.mpr hroom.2, hring, put, pushed]

theorem Live.put (h : c.Live) (hroom : c.hasRoom = true) : (c.put block).Live := by
  obtain ⟨ring, hring⟩ := h.ring
  unfold Channel.put
  rw [hring]
  exact ⟨h.sound.push hring (room_of_hasRoom hroom), _, rfl⟩

variable [Inhabited α]

theorem Live.take_contents (h : c.Live) (hdata : c.block ≤ c.available) {ring : Array α}
    (hring : c.ring = some ring) : c.contents.take c.block = readRing ring c.readAt c.block := by
  rw [h.sound.contents_popped hring hdata]
  exact List.take_left' length_readRing

theorem Live.contents_popped (h : c.Live) (hdata : c.block ≤ c.available) :
    c.popped.contents = c.contents.drop c.block := by
  obtain ⟨ring, hring⟩ := h.ring
  rw [h.sound.contents_popped hring hdata]
  exact (List.drop_left' length_readRing).symm

/-- Where there is a block, it is read. -/
theorem Live.tryRead (h : c.Live) (hdata : c.block ≤ c.available) {out : List α}
    (hlength : out.length = c.block) :
    c.tryRead out = (.ok .done, c.contents.take c.block, c.popped) := by
  obtain ⟨ring, hring⟩ := h.ring
  rw [h.take_contents hdata hring]
  simp [Channel.tryRead, hlength, Nat.not_lt.mpr hdata, hring, Channel.popped]

/-- Where a block is missing, nothing is read. -/
theorem tryRead_of_lt (hsteady : c.state = .steady) (hshort : c.available < c.block)
    {out : List α} (hlength : out.length = c.block) :
    c.tryRead out = (.ok .wouldBlock, out, c) := by
  simp [Channel.tryRead, hlength, hshort, hsteady]

theorem Live.contents_put (h : c.Live) (hroom : c.hasRoom = true)
    (hlength : block.length = c.block) : (c.put block).contents = c.contents ++ block := by
  obtain ⟨ring, hring⟩ := h.ring
  unfold Channel.put
  rw [hring]
  exact h.sound.contents_pushed hring hlength (room_of_hasRoom hroom)

end Transfers

section Fresh

variable {α : Type} {c : Channel α}

/-- Whether a channel is open and empty. -/
def isFresh (c : Channel α) : Bool :=
  decide (0 < c.block ∧ c.block ≤ c.capacity ∧ c.state = .steady ∧ c.available = 0 ∧
    c.readAt < c.capacity ∧ c.writeAt = c.readAt) &&
  c.ring.any fun ring => ring.size = c.capacity

theorem live_of_isFresh (h : c.isFresh = true) : c.Live ∧ c.state = .steady ∧ c.available = 0 := by
  unfold isFresh at h
  rw [Bool.and_eq_true, decide_eq_true_eq] at h
  obtain ⟨⟨hpos, hle, hsteady, hempty, hread, hwrite⟩, hring⟩ := h
  obtain ⟨ring, hring, hsize⟩ := Option.any_eq_true _ _ |>.mp hring
  refine ⟨⟨⟨hpos, hle, ?_, ?_, ?_, ?_, ?_⟩, ring, hring⟩, hsteady, hempty⟩
  · rw [hempty]
    exact Nat.dvd_zero _
  · rw [hempty]
    exact Nat.zero_le _
  · intro ring' hring'
    cases hring.symm.trans hring'
    exact of_decide_eq_true hsize
  · intro _
    exact hempty
  · rw [hempty, hwrite, Nat.add_zero, Nat.mod_eq_of_lt hread]

/-- A new channel whose two sides have met is open and empty, whatever its capacity. -/
theorem isFresh_of_createAttached [Inhabited α] {name : String} {capacity block : Nat}
    (h : createAttached name capacity block = .ok c) : c.isFresh = true ∧ c.block = block := by
  by_cases hbad : block = 0 ∨ capacity < block
  · have herror : (createAttached name capacity block : Except ChannelError (Channel α)) =
        .error (.invalidConfig capacity block) := by
      unfold createAttached create
      rw [if_pos hbad]
      rfl
    cases herror.symm.trans h
  · let met : Channel α :=
      { name, capacity, block, ring := some (.replicate capacity default), state := .steady
        ready := .received, attached := .received }
    have hok : createAttached name capacity block = .ok met := by
      unfold createAttached create
      rw [if_neg hbad]
      rfl
    obtain rfl : met = c := Except.ok.inj (hok.symm.trans h)
    have hvalid : 0 < block ∧ block ≤ capacity ∧ 0 < capacity := by omega
    exact ⟨by simpa [isFresh, met] using hvalid, rfl⟩

end Fresh

end Channel

namespace ChannelTable

section Defs

variable {α : Type}

/-- Take a block from each of several channels. -/
def popAll (t : ChannelTable α) (ids : List NodeId) : ChannelTable α :=
  ids.foldl (fun t id => t.change id Channel.popped) t

/-- Put blocks into channels. -/
def putAll (t : ChannelTable α) (blocks : List (NodeId × List α)) : ChannelTable α :=
  blocks.foldl (fun t b => t.change b.1 (Channel.put · b.2)) t

variable [Inhabited α]

/-- The samples on their way in a channel. -/
def contentsOf (t : ChannelTable α) (id : NodeId) : List α :=
  match t[id]? with
  | some c => c.contents
  | none => []

/-- The next block of a channel. -/
def head (t : ChannelTable α) (id : NodeId) : List α := (t.contentsOf id).take (t.blockOf id)

end Defs

section Lookups

variable {α : Type} {t : ChannelTable α} {id other : NodeId} {c : Channel α}

theorem getElem?_change {f : Channel α → Channel α} :
    (t.change id f)[other]? = if id = other then t[other]?.map f else t[other]? := by
  unfold change
  simp only [Std.ExtTreeMap.getElem?_modify, Std.compare_eq_iff_eq]
  split
  · rename_i heq
    rw [heq]
  · rfl

/-- Writing a changed channel back changes it. -/
theorem insert_eq_change {f : Channel α → Channel α} (h : t[id]? = some c) :
    t.insert id (f c) = t.change id f := by
  refine Std.ExtTreeMap.ext_getElem? ?_
  intro other
  rw [getElem?_change, Std.ExtTreeMap.getElem?_insert]
  simp only [Std.compare_eq_iff_eq]
  split
  · rename_i heq
    rw [← heq, h]
    rfl
  · rfl

theorem insert_eq_self (h : t[id]? = some c) : t.insert id c = t := by
  refine Std.ExtTreeMap.ext_getElem? ?_
  intro other
  rw [Std.ExtTreeMap.getElem?_insert]
  simp only [Std.compare_eq_iff_eq]
  split
  · rename_i heq
    rw [← heq, h]
  · rfl

@[simp] theorem blockOf_of_getElem? (h : t[id]? = some c) : t.blockOf id = c.block := by
  unfold blockOf
  rw [h]

@[simp] theorem contentsOf_of_getElem? [Inhabited α] (h : t[id]? = some c) :
    t.contentsOf id = c.contents := by
  unfold contentsOf
  rw [h]

theorem blockOf_change {f : Channel α → Channel α} (hf : ∀ c, (f c).block = c.block) :
    (t.change id f).blockOf other = t.blockOf other := by
  unfold blockOf
  rw [getElem?_change]
  by_cases h : id = other
  · cases t[other]? <;> simp [h, hf]
  · simp [h]

end Lookups

section Changes

variable {α : Type} {t : ChannelTable α} {id : NodeId}

@[simp] theorem popAll_cons {rest : List NodeId} :
    t.popAll (id :: rest) = (t.change id Channel.popped).popAll rest := rfl

@[simp] theorem putAll_cons {b : NodeId × List α} {rest : List (NodeId × List α)} :
    t.putAll (b :: rest) = (t.change b.1 (Channel.put · b.2)).putAll rest := rfl

theorem popAll_append {ids rest : List NodeId} :
    t.popAll (ids ++ rest) = (t.popAll ids).popAll rest := List.foldl_append

theorem putAll_append {blocks rest : List (NodeId × List α)} :
    t.putAll (blocks ++ rest) = (t.putAll blocks).putAll rest := List.foldl_append

theorem getElem?_popAll {ids : List NodeId} (h : ids.Nodup) :
    (t.popAll ids)[id]? = if id ∈ ids then t[id]?.map Channel.popped else t[id]? := by
  induction ids generalizing t with
  | nil => rfl
  | cons x rest ih =>
      obtain ⟨hx, hrest⟩ := List.nodup_cons.mp h
      rw [popAll_cons, ih hrest, getElem?_change]
      by_cases hxid : x = id
      · subst hxid
        simp [hx]
      · have hne : id ≠ x := fun heq => hxid heq.symm
        simp [hxid, hne]

theorem getElem?_popAll_of_notMem {ids : List NodeId} (h : ids.Nodup) (hid : id ∉ ids) :
    (t.popAll ids)[id]? = t[id]? := by
  rw [getElem?_popAll h, if_neg hid]

theorem blockOf_popAll {ids : List NodeId} : (t.popAll ids).blockOf id = t.blockOf id := by
  induction ids generalizing t with
  | nil => rfl
  | cons x rest ih =>
      rw [popAll_cons, ih]
      exact blockOf_change fun _ => Channel.block_popped

theorem blockOf_putAll {blocks : List (NodeId × List α)} :
    (t.putAll blocks).blockOf id = t.blockOf id := by
  induction blocks generalizing t with
  | nil => rfl
  | cons x rest ih =>
      rw [putAll_cons, ih]
      exact blockOf_change fun _ => Channel.block_put

theorem getElem?_putAll {blocks : List (NodeId × List α)} (h : (blocks.map Prod.fst).Nodup) :
    (t.putAll blocks)[id]? =
      match blocks.lookup id with
      | some b => t[id]?.map (Channel.put · b)
      | none => t[id]? := by
  induction blocks generalizing t with
  | nil => rfl
  | cons x rest ih =>
      obtain ⟨d, b⟩ := x
      obtain ⟨hd, hrest⟩ := List.nodup_cons.mp h
      rw [putAll_cons, ih hrest, getElem?_change]
      by_cases hid : d = id
      · subst hid
        have hnone : rest.lookup d = none := by
          rw [List.lookup_eq_none_iff]
          intro y hy
          rw [bne_iff_ne]
          rintro rfl
          exact hd (List.mem_map.mpr ⟨y, hy, rfl⟩)
        simp [hnone]
      · have hne : (id == d) = false := beq_false_of_ne fun heq => hid heq.symm
        simp [List.lookup_cons, hne, hid]

theorem getElem?_closeAll {ids : List NodeId} :
    (t.closeAll ids)[id]? = if id ∈ ids then t[id]?.map Channel.close else t[id]? := by
  unfold closeAll
  induction ids generalizing t with
  | nil => rfl
  | cons x rest ih =>
      rw [List.foldl_cons, ih, getElem?_change]
      by_cases hxid : x = id
      · subst hxid
        cases t[x]? <;> simp [Channel.close_close]
      · have hne : id ≠ x := fun heq => hxid heq.symm
        simp [hxid, hne]

theorem blockOf_closeAll {ids : List NodeId} : (t.closeAll ids).blockOf id = t.blockOf id := by
  unfold blockOf
  rw [getElem?_closeAll]
  by_cases h : id ∈ ids
  · rw [if_pos h]
    cases t[id]? <;> rfl
  · rw [if_neg h]

theorem contentsOf_closeAll [Inhabited α] {ids : List NodeId} :
    (t.closeAll ids).contentsOf id = t.contentsOf id := by
  unfold contentsOf
  rw [getElem?_closeAll]
  by_cases h : id ∈ ids
  · rw [if_pos h]
    cases t[id]? <;> rfl
  · rw [if_neg h]

end Changes

section Transfers

variable {α : Type} [Inhabited α] {t : ChannelTable α} {id : NodeId} {c : Channel α}

theorem tryRead_eq_done (h : t[id]? = some c) (hlive : c.Live) (hdata : c.block ≤ c.available)
    {out : List α} (hlength : out.length = c.block) :
    t.tryRead id out = (.ok .done, t.head id, t.change id Channel.popped) := by
  unfold tryRead call head
  rw [h, contentsOf_of_getElem? h, blockOf_of_getElem? h]
  simp only [hlive.tryRead hdata hlength, insert_eq_change h]

theorem tryRead_eq_wouldBlock (h : t[id]? = some c) (hsteady : c.state = .steady)
    (hshort : c.available < c.block) {out : List α} (hlength : out.length = c.block) :
    t.tryRead id out = (.ok .wouldBlock, out, t) := by
  unfold tryRead call
  rw [h]
  simp only [Channel.tryRead_of_lt hsteady hshort hlength, insert_eq_self h]

omit [Inhabited α] in
theorem tryWrite_eq_done (h : t[id]? = some c) (hlive : c.Live) (hroom : c.hasRoom = true)
    {block : List α} (hlength : block.length = c.block) :
    t.tryWrite id block = (.ok .done, t.change id (Channel.put · block)) := by
  unfold tryWrite call
  rw [h]
  simp only [hlive.tryWrite hroom hlength, insert_eq_change (f := (Channel.put · block)) h]

end Transfers

section Conditions

variable {α : Type} {t : ChannelTable α} {id other : NodeId} {f : Channel α → Channel α}

/-- A channel is there and has a block. -/
def Holds (t : ChannelTable α) (id : NodeId) : Prop :=
  ∃ c, t[id]? = some c ∧ c.Live ∧ c.block ≤ c.available

/-- A channel is there and has room for a block. -/
def Accepts (t : ChannelTable α) (id : NodeId) : Prop :=
  ∃ c, t[id]? = some c ∧ c.Live ∧ c.hasRoom = true

/-- A channel is there, has no block yet and is open. -/
def Lacks (t : ChannelTable α) (id : NodeId) : Prop :=
  ∃ c, t[id]? = some c ∧ c.state = .steady ∧ c.available < c.block

theorem getElem?_change_of_ne (h : id ≠ other) : (t.change id f)[other]? = t[other]? := by
  rw [getElem?_change, if_neg h]

theorem Holds.change (ht : t.Holds other) (h : id ≠ other) : (t.change id f).Holds other := by
  unfold Holds at ht ⊢
  rwa [getElem?_change_of_ne h]

theorem Holds.length_head [Inhabited α] (ht : t.Holds id) : (t.head id).length = t.blockOf id := by
  obtain ⟨c, hc, hlive, hdata⟩ := ht
  rw [head, contentsOf_of_getElem? hc, blockOf_of_getElem? hc, List.length_take,
    hlive.sound.length_contents, Nat.min_eq_left hdata]

theorem Accepts.change (ht : t.Accepts other) (h : id ≠ other) : (t.change id f).Accepts other := by
  unfold Accepts at ht ⊢
  rwa [getElem?_change_of_ne h]

theorem head_change_of_ne [Inhabited α] (h : id ≠ other) :
    (t.change id f).head other = t.head other := by
  unfold head contentsOf blockOf
  rw [getElem?_change_of_ne h]

end Conditions

end ChannelTable

end Dataflow

import Dataflow.Proofs.Bundle.Intake

/-!
# Frames from many writers

A bundle that writes sends the first blocks of all its channels side by side, then the second ones,
and so on, whatever the writers of these channels do meanwhile.

**Outlet.**  Steps of the bundle and calls on channels follow one another in any order, from the
creation of the channels on.  The same number of blocks has been taken from all channels (`Drawn`),
so that no block is sent beside one that was written before or after it.

**End.**  The bundle has seen the end when a channel is closed and empty.  Nothing is written to
this channel any more, and so the blocks that were taken are as many as it will ever have got.

**Results.**
* `Channel.Yields.popped`, `Channel.Yields.call`: taking a block and calls of others, on one
  channel.
* `Drawn.step`, `Drawn.call`, `Drawn.run`: steps and calls keep the channels together.
* `blocks_sent`: the frames that were written are the first rows of blocks, no step fails, and a
  bundle that has ended has sent as many as the channel with the fewest blocks has got.
-/

namespace Dataflow

section Defs

variable {α : Type} {t : SampleType} {τ : Type}

/-- Whether a call takes samples out of the channel. -/
def Call.isRead : Call α → Bool
  | .tryRead _ => true
  | _ => false

/-- The blocks that a call puts into a channel: one or none. -/
def Channel.gives [Inhabited α] (c : Channel α) (call : Call α) : List (List α) :=
  if call.isWrite && (c.call call).1.isDone then [call.given (c.call call).1] else []

/-- The blocks that a call on a channel of a table puts into it. -/
def ChannelTable.givenBy [Inhabited α] (table : ChannelTable α) (id : NodeId) (call : Call α) :
    List (List α) :=
  match table[id]? with
  | some c => c.gives call
  | none => []

/-- Whether somebody else reads one of some channels. -/
def Intake.Move.readsFrom (ids : List NodeId) : Intake.Move t → Bool
  | .step => false
  | .call c made => decide (c ∈ ids) && made.isRead

/-- A bundle that writes and what is around it, with the blocks that its channels have got and what
it has answered so far. -/
structure Outlet (t : SampleType) (τ : Type) where
  bundle : OutputBundle t
  table : ChannelTable (Sample t)
  outside : τ × Tape
  given : NodeId → List (List (Sample t)) := fun _ => []
  answers : List (Except BridgeError BundleStep) := []

namespace Outlet

/-- A new bundle before its first step. -/
def start (name : String) (members : List (NodeId × Nat)) (table : ChannelTable (Sample t))
    (w : τ) : Outlet t τ :=
  { bundle := .ofMembers name members, table, outside := (w, {}) }

/-- Frames written so far. -/
def written (s : Outlet t τ) : List (List UInt8) := s.outside.2.written

/-- The blocks that came to the channels at the same place. -/
def row (s : Outlet t τ) (i : Nat) : Row (Sample t) := fun c => (s.given c).getD i []

/-- One move. -/
def after (tr : Transport τ) (s : Outlet t τ) : Intake.Move t → Outlet t τ
  | .step =>
      let (answer, bundle, table, outside) := s.bundle.step tr.recorded s.table s.outside
      { s with bundle, table, outside, answers := s.answers ++ [answer] }
  | .call c made =>
      { s with
        table := s.table.called c made
        given := Function.update s.given c (s.given c ++ s.table.givenBy c made) }

/-- Moves one after the other. -/
def run (tr : Transport τ) (s : Outlet t τ) (moves : List (Intake.Move t)) : Outlet t τ :=
  moves.foldl (after tr) s

end Outlet

end Defs

namespace Channel

variable {α : Type} [Inhabited α] {c : Channel α} {blocks : List (List α)} {taken : Nat}
  {made : Call α}

/-- A call that is no read puts a block behind the others, or none. -/
theorem Sound.gives_cases (h : c.Sound) (hmade : made.isRead = false) :
    (∃ block, c.gives made = [block] ∧ block.length = c.block ∧ c.state = .steady ∧
      (c.call made).2.contents = c.contents ++ block) ∨
    c.gives made = [] ∧ (c.call made).2.contents = c.contents := by
  cases hdone : (c.call made).1.isDone with
  | false => exact .inr ⟨by simp [gives, hdone], (keeps_call h made hdone).contents⟩
  | true =>
      -- only a transfer is ever done
      cases made with
      | tryWrite samples =>
          rcases c.tryWrite_cases samples with ⟨ring, hring, hsteady, hlength, hroom, heq⟩ |
            ⟨r, hr, -, heq⟩
          · refine .inl ⟨samples, ?_, hlength, hsteady, ?_⟩
            · simp [gives, Call.isWrite, Channel.call, heq, Reply.isDone, Call.given]
            · simp only [Channel.call, heq]
              exact h.contents_pushed hring hlength hroom
          · simp only [Channel.call, heq] at hdone
            exact absurd (Reply.isDone_wrote.mp hdone) hr
      | tryRead out => cases hmade
      | _ => cases hdone

/-- What is on its way in a channel are the blocks that came to it, without those that were
taken. -/
structure Yields (c : Channel α) (blocks : List (List α)) (taken : Nat) : Prop where
  kept : c.Kept
  le : taken ≤ blocks.length
  sized : ∀ b ∈ blocks, b.length = c.block
  contents : c.contents = (blocks.drop taken).flatten

omit [Inhabited α] in
theorem Kept.live_of_hasData (h : c.Kept) (hdata : c.hasData = true) :
    c.Live ∧ c.block ≤ c.available := by
  simp only [hasData, Bool.and_eq_true, decide_eq_true_eq] at hdata
  refine ⟨h.live fun hnone => ?_, hdata.2⟩
  have hpos := h.sound.block_pos
  have hempty := h.sound.empty hnone
  omega

namespace Yields

/-- The next block and the others. -/
theorem contents_eq (h : c.Yields blocks taken) (hlt : taken < blocks.length) :
    c.contents = blocks.getD taken [] ++ (blocks.drop (taken + 1)).flatten ∧
      (blocks.getD taken []).length = c.block := by
  rw [List.getD_eq_getElem?_getD, List.getElem?_eq_getElem hlt, Option.getD_some]
  refine ⟨?_, h.sized _ (List.getElem_mem hlt)⟩
  rw [h.contents, List.drop_eq_getElem_cons hlt, List.flatten_cons]

theorem lt_of_hasData (h : c.Yields blocks taken) (hdata : c.hasData = true) :
    taken < blocks.length := by
  obtain ⟨hlive, hlong⟩ := h.kept.live_of_hasData hdata
  refine lt_of_le_of_ne h.le fun heq => ?_
  have hnone : c.contents = [] := by
    rw [h.contents, heq, List.drop_length]
    rfl
  have hempty := h.kept.sound.length_contents
  rw [hnone, List.length_nil] at hempty
  have hpos := h.kept.sound.block_pos
  omega

/-- All blocks have been taken from a channel that is closed and has none. -/
theorem length_eq_of_closed (h : c.Yields blocks taken) (hclosed : c.isClosed = true)
    (hdata : c.hasData = false) : blocks.length = taken := by
  refine le_antisymm (Nat.le_of_not_lt fun hlt => ?_) h.le
  obtain ⟨hcontents, hlength⟩ := h.contents_eq hlt
  have hlong : c.block ≤ c.available := by
    rw [← h.kept.sound.length_contents, hcontents, List.length_append, hlength]
    exact Nat.le_add_right _ _
  simp only [isClosed, decide_eq_true_eq] at hclosed
  simp [hasData, hclosed] at hdata
  omega

/-- The next block is taken. -/
theorem popped (h : c.Yields blocks taken) (hdata : c.hasData = true) :
    c.contents.take c.block = blocks.getD taken [] ∧ c.popped.Yields blocks (taken + 1) := by
  have hlt := h.lt_of_hasData hdata
  obtain ⟨hlive, hlong⟩ := h.kept.live_of_hasData hdata
  obtain ⟨hcontents, hlength⟩ := h.contents_eq hlt
  have hkept : c.popped.Kept := by
    have hread := h.kept.call (.tryRead (blocks.getD taken []))
    simp only [Channel.call, hlive.tryRead hlong hlength] at hread
    exact hread
  refine ⟨?_, hkept, hlt, h.sized, ?_⟩
  · rw [hcontents, List.take_left' hlength]
  · rw [hlive.contents_popped hlong, hcontents, List.drop_left' hlength]

/-- Others only add blocks. -/
theorem call (h : c.Yields blocks taken) (made : Call α) (hmade : made.isRead = false) :
    (c.call made).2.Yields (blocks ++ c.gives made) taken := by
  have hblock := (c.course_call made).block
  refine ⟨h.kept.call made, ?_, ?_, ?_⟩
  · rw [List.length_append]
    exact h.le.trans (Nat.le_add_right _ _)
  · rw [hblock]
    intro b hb
    rcases List.mem_append.mp hb with hold | hnew
    · exact h.sized b hold
    · rcases h.kept.sound.gives_cases hmade with ⟨block, hgives, hlength, -⟩ | ⟨hgives, -⟩
      · rw [hgives, List.mem_singleton] at hnew
        rw [hnew, hlength]
      · rw [hgives] at hnew
        cases hnew
  · rw [List.drop_append_of_le_length h.le, List.flatten_append, ← h.contents]
    rcases h.kept.sound.gives_cases hmade with ⟨block, hgives, -, -, hcontents⟩ |
      ⟨hgives, hcontents⟩
    · rw [hcontents, hgives]
      simp
    · rw [hcontents, hgives]
      simp

theorem close (h : c.Yields blocks taken) : c.close.Yields blocks taken := by
  have hclose : c.close.Yields (blocks ++ []) taken := h.call .close rfl
  rwa [List.append_nil] at hclose

end Yields

end Channel

namespace ChannelTable

variable {α : Type} [Inhabited α] {table : ChannelTable α} {id : NodeId} {ids : List NodeId}
  {size : NodeId → Nat} {given : NodeId → List (List α)} {k : Nat} {made : Call α}

/-- The same number of blocks has been taken from several channels. -/
def Yields (table : ChannelTable α) (ids : List NodeId) (size : NodeId → Nat)
    (given : NodeId → List (List α)) (k : Nat) : Prop :=
  ∀ id ∈ ids, ∃ c, table[id]? = some c ∧ c.block = size id ∧ c.Yields (given id) k

namespace Yields

theorem blockOf_eq (h : table.Yields ids size given k) (hid : id ∈ ids) :
    table.blockOf id = size id := by
  obtain ⟨c, hc, hsize, -⟩ := h id hid
  rw [blockOf_of_getElem? hc, hsize]

theorem contentsOf_eq (h : table.Yields ids size given k) (hid : id ∈ ids) :
    k ≤ (given id).length ∧ table.contentsOf id = ((given id).drop k).flatten := by
  obtain ⟨c, hc, -, hyields⟩ := h id hid
  rw [contentsOf_of_getElem? hc]
  exact ⟨hyields.le, hyields.contents⟩

theorem holds (h : table.Yields ids size given k) (hid : id ∈ ids)
    (hdata : table.hasData id = true) : table.Holds id := by
  obtain ⟨c, hc, -, hyields⟩ := h id hid
  rw [hasData, hc] at hdata
  exact ⟨c, hc, hyields.kept.live_of_hasData hdata⟩

/-- The next block of every channel is the one at the place that they have in common. -/
theorem head_eq (h : table.Yields ids size given k) (hid : id ∈ ids)
    (hdata : table.hasData id = true) : table.head id = (given id).getD k [] := by
  obtain ⟨c, hc, -, hyields⟩ := h id hid
  rw [hasData, hc] at hdata
  rw [head, contentsOf_of_getElem? hc, blockOf_of_getElem? hc]
  exact (hyields.popped hdata).1

theorem length_eq_of_closed (h : table.Yields ids size given k) (hid : id ∈ ids)
    (hclosed : table.isClosed id = true) (hdata : table.hasData id = false) :
    (given id).length = k := by
  obtain ⟨c, hc, -, hyields⟩ := h id hid
  rw [isClosed, hc] at hclosed
  rw [hasData, hc] at hdata
  exact hyields.length_eq_of_closed hclosed hdata

theorem popAll (h : table.Yields ids size given k) (hnodup : ids.Nodup)
    (hdata : ∀ id ∈ ids, table.hasData id = true) :
    (table.popAll ids).Yields ids size given (k + 1) := by
  intro id hid
  obtain ⟨c, hc, hsize, hyields⟩ := h id hid
  have hfull := hdata id hid
  rw [hasData, hc] at hfull
  refine ⟨c.popped, ?_, hsize, (hyields.popped hfull).2⟩
  rw [getElem?_popAll hnodup, if_pos hid, hc]
  rfl

/-- Closing the channels leaves in them what was not taken. -/
theorem closeAll (h : table.Yields ids size given k) (ended : Bool) :
    (if ended then table.closeAll ids else table).Yields ids size given k := by
  cases ended with
  | false => exact h
  | true =>
      intro id hid
      obtain ⟨c, hc, hsize, hyields⟩ := h id hid
      refine ⟨c.close, ?_, hsize, hyields.close⟩
      rw [if_pos rfl, getElem?_closeAll, if_pos hid, hc]
      rfl

/-- Calls of others on one of the channels, or on any other channel. -/
theorem called (h : table.Yields ids size given k) (hmade : id ∈ ids → made.isRead = false) :
    (table.called id made).Yields ids size
      (Function.update given id (given id ++ table.givenBy id made)) k := by
  intro other hother
  obtain ⟨c, hc, hsize, hyields⟩ := h other hother
  by_cases hid : id = other
  · subst hid
    refine ⟨(c.call made).2, getElem?_called_self hc, (c.course_call made).block.trans hsize, ?_⟩
    rw [Function.update_self, givenBy, hc]
    exact hyields.call made (hmade hother)
  · refine ⟨c, (getElem?_called_of_ne hid).trans hc, hsize, ?_⟩
    rwa [Function.update_of_ne (Ne.symm hid)]

/-- Nothing comes to a channel that is closed. -/
theorem givenBy_of_closed (h : table.Yields ids size given k) (hid : id ∈ ids)
    (hclosed : table.isClosed id = true) (hmade : made.isRead = false) :
    table.givenBy id made = [] := by
  obtain ⟨c, hc, -, hyields⟩ := h id hid
  simp only [isClosed, hc, Channel.isClosed, decide_eq_true_eq] at hclosed
  rw [givenBy, hc]
  rcases hyields.kept.sound.gives_cases hmade with ⟨block, -, -, hsteady, -⟩ | ⟨hgives, -⟩
  · cases hclosed.symm.trans hsteady
  · exact hgives

end Yields

/-- A closed channel stays closed. -/
theorem isClosed_called_of_closed {other : NodeId} (h : table.isClosed other = true) :
    (table.called id made).isClosed other = true := by
  unfold isClosed at h ⊢
  rw [getElem?_called]
  by_cases hid : id = other
  · rw [if_pos hid]
    cases hc : table[other]? with
    | none => rfl
    | some c =>
        simp only [hc, Channel.isClosed, decide_eq_true_eq] at h
        simpa [Channel.isClosed] using Channel.state_call_of_closed h made
  · rwa [if_neg hid]

omit [Inhabited α] in
theorem isClosed_closeAll (h : table.isClosed id = true) (ended : Bool) :
    (if ended then table.closeAll ids else table).isClosed id = true := by
  cases ended with
  | false => exact h
  | true =>
      unfold isClosed at h ⊢
      rw [if_pos rfl, getElem?_closeAll]
      by_cases hid : id ∈ ids
      · rw [if_pos hid]
        cases table[id]? <;> simp [Channel.isClosed, Channel.close]
      · rwa [if_neg hid]

end ChannelTable

namespace OutputBundle

theorem length_held {t : SampleType} {b : OutputBundle t} :
    b.held.length = b.externalFilled.toNat + b.internalFilled.toNat := by
  unfold held
  cases b.externalFilled <;> cases b.internalFilled <;> rfl

theorem frames_ofMembers {t : SampleType} (name : String) (members : List (NodeId × Nat)) :
    (ofMembers name members : OutputBundle t).frames = 0 := by
  induction members using List.reverseRecOn with
  | nil => rfl
  | append_singleton members m ih =>
      rw [ofMembers, List.foldl_concat]
      exact ih

end OutputBundle

namespace Outlet

variable {t : SampleType} {τ : Type} {tr : Transport τ} {usable : τ → Prop} {ids : List NodeId}
  {size : NodeId → Nat} {length k : Nat} {s : Outlet t τ}

section Invariant

/-- From every channel `k` blocks have been taken.  They are, row by row, what was written and
what is held. -/
structure Drawn (usable : τ → Prop) (ids : List NodeId) (size : NodeId → Nat) (length : Nat)
    (s : Outlet t τ) (k : Nat) : Prop where
  suits : s.bundle.Suits ids size length
  outside : usable s.outside.1
  yields : s.table.Yields ids size s.given k
  stream : s.written ++ s.bundle.held = (List.range k).map fun i => (s.row i).frame ids
  count : s.bundle.frames = s.written.length
  seen : s.bundle.sawEnd = true → ∃ c ∈ ids, s.table.isClosed c = true ∧ (s.given c).length = k
  done : s.bundle.ended = true → s.bundle.sawEnd = true ∧ s.bundle.held = []
  answers_ok : ∀ a ∈ s.answers, ∃ outcome, a = .ok outcome
  answer_ended : .ok .ended ∈ s.answers → s.bundle.ended = true

/-- A bundle that has ended only says so. -/
theorem Drawn.step_of_ended (h : Drawn usable ids size length s k)
    (hended : s.bundle.ended = true) : Drawn usable ids size length (s.after tr .step) k := by
  have hafter : s.after tr .step = { s with answers := s.answers ++ [.ok .ended] } := by
    simp [after, OutputBundle.step, hended]
  rw [hafter]
  refine { h with answers_ok := ?_, answer_ended := fun _ => hended }
  simpa [or_imp, forall_and] using h.answers_ok

/-- The bundle takes what it finds, row by row. -/
theorem Drawn.step (h : Drawn usable ids size length s k) (hnodup : ids.Nodup)
    (htr : tr.Unfailing length usable) :
    ∃ k, Drawn usable ids size length (s.after tr .step) k := by
  cases hopen : s.bundle.ended with
  | true => exact ⟨k, h.step_of_ended hopen⟩
  | false =>
      obtain ⟨outcome, b, table, w, out, hstep, hb, hw, hframes, hdone, hended, hcases⟩ :=
        OutputBundle.step_cases h.suits hnodup htr h.outside (fun c hc => h.yields.holds hc)
          (fun c hc => h.yields.blockOf_eq hc) hopen s.outside.2
      have hcount : b.frames = (s.written ++ out).length := by
        rw [hframes, h.count, List.length_append]
      have hok : ∀ a ∈ s.answers ++ [.ok outcome], ∃ outcome, a = .ok outcome := by
        simpa [or_imp, forall_and] using h.answers_ok
      have hanswer : .ok .ended ∈ s.answers ++ [.ok outcome] → b.ended = true := by
        intro hmem
        rcases List.mem_append.mp hmem with hold | hnew
        · cases hopen.symm.trans (h.answer_ended hold)
        · cases List.mem_singleton.mp hnew
          exact hended.mp rfl
      have hafter : s.after tr .step =
          { s with
            bundle := b
            table
            outside := (w, { s.outside.2 with written := s.written ++ out })
            answers := s.answers ++ [.ok outcome] } := by
        simp only [after, hstep]
        rfl
      rw [hafter]
      rcases hcases with ⟨rfl, hheld, hseen⟩ | ⟨rfl, hdata, hheld, hunseen⟩
      · refine ⟨k, ⟨hb, hw, h.yields.closeAll b.ended, ?_, hcount, ?_, hdone, hok, hanswer⟩⟩
        · refine Eq.trans ?_ h.stream
          show s.written ++ out ++ b.held = s.written ++ s.bundle.held
          rw [hheld, List.append_assoc]
        · intro hsaw
          obtain ⟨c, hc, hclosed, hlength⟩ :
              ∃ c ∈ ids, s.table.isClosed c = true ∧ (s.given c).length = k := by
            rcases hseen hsaw with hbefore | ⟨c, hc, hclosed, hempty⟩
            · exact h.seen hbefore
            · exact ⟨c, hc, hclosed, h.yields.length_eq_of_closed hc hclosed hempty⟩
          exact ⟨c, hc, ChannelTable.isClosed_closeAll hclosed b.ended, hlength⟩
      · refine ⟨k + 1, ⟨hb, hw, h.yields.popAll hnodup hdata, ?_, hcount, ?_, hdone, hok, hanswer⟩⟩
        · -- the next blocks of all channels are those of the next row
          have hrow : Row.frame ids s.table.head = (s.row k).frame ids :=
            List.flatMap_congr fun c hc => congrArg wire (h.yields.head_eq hc (hdata c hc))
          show s.written ++ out ++ b.held = (List.range (k + 1)).map fun i => (s.row i).frame ids
          rw [List.range_succ, List.map_append, List.map_singleton, ← h.stream,
            List.append_assoc, ← hheld, hrow, List.append_assoc]
        · intro hsaw
          cases hunseen.symm.trans hsaw

/-- A call of somebody else adds a block behind those that have come, or none. -/
theorem Drawn.call (h : Drawn usable ids size length s k) {c : NodeId} {made : Call (Sample t)}
    (hmade : c ∈ ids → made.isRead = false) :
    Drawn usable ids size length (s.after tr (.call c made)) k := by
  have hrow : ∀ i < k, ((s.after tr (.call c made)).row i).frame ids = (s.row i).frame ids := by
    intro i hi
    refine List.flatMap_congr fun d hd => congrArg wire ?_
    have hlt : i < (s.given d).length := hi.trans_le (h.yields.contentsOf_eq hd).1
    show (Function.update s.given c (s.given c ++ s.table.givenBy c made) d).getD i [] =
      (s.given d).getD i []
    by_cases hcd : d = c
    · subst hcd
      rw [Function.update_self, List.getD_eq_getElem?_getD, List.getElem?_append_left hlt,
        ← List.getD_eq_getElem?_getD]
    · rw [Function.update_of_ne hcd]
  refine ⟨h.suits, h.outside, h.yields.called hmade, ?_, h.count, ?_, h.done, h.answers_ok,
    h.answer_ended⟩
  · refine h.stream.trans (List.map_congr_left fun i hi => ?_)
    exact (hrow i (List.mem_range.mp hi)).symm
  · intro hsaw
    obtain ⟨d, hd, hclosed, hlength⟩ := h.seen hsaw
    refine ⟨d, hd, ChannelTable.isClosed_called_of_closed hclosed, ?_⟩
    show (Function.update s.given c (s.given c ++ s.table.givenBy c made) d).length = k
    by_cases hcd : d = c
    · subst hcd
      rw [Function.update_self, h.yields.givenBy_of_closed hd hclosed (hmade hd),
        List.append_nil, hlength]
    · rw [Function.update_of_ne hcd, hlength]

/-- Steps and calls in any order keep the channels together. -/
theorem Drawn.run (h : Drawn usable ids size length s k) (hnodup : ids.Nodup)
    (htr : tr.Unfailing length usable) {moves : List (Intake.Move t)}
    (hmoves : ∀ m ∈ moves, m.readsFrom ids = false) :
    ∃ k, Drawn usable ids size length (s.run tr moves) k := by
  induction moves generalizing s k with
  | nil => exact ⟨k, h⟩
  | cons m moves ih =>
      have hnext : ∃ k, Drawn usable ids size length (s.after tr m) k := by
        cases m with
        | step => exact h.step hnodup htr
        | call c made =>
            refine ⟨k, h.call ?_⟩
            simpa [Intake.Move.readsFrom] using hmoves (.call c made) List.mem_cons_self
      obtain ⟨k, hnext⟩ := hnext
      exact ih hnext fun m hm => hmoves m (List.mem_cons_of_mem _ hm)

end Invariant

section Start

variable {name : String} {members : List (NodeId × Nat)} {table : ChannelTable (Sample t)} {w : τ}

/-- Before the first step nothing was taken. -/
theorem drawn_start
    (hchannels : ∀ m ∈ members, ∃ ch label capacity,
      table[m.1]? = some ch ∧ Channel.create label capacity m.2 = .ok ch) (hw : usable w) :
    Drawn usable (members.map Prod.fst) table.blockOf (frameLength t members)
      (start name members table w)
      0 := by
  have hsize : ∀ m ∈ members, m.2 = table.blockOf m.1 := by
    intro m hm
    obtain ⟨ch, label, capacity, hch, hcreate⟩ := hchannels m hm
    rw [ChannelTable.blockOf_of_getElem? hch, (Channel.kept_of_create hcreate).2.2.2.2.2]
  obtain ⟨hsuits, hexternal, hinternal, hsaw, hended⟩ :=
    OutputBundle.ofMembers_spec (t := t) name hsize
  refine ⟨hsuits, hw, ?_, ?_, OutputBundle.frames_ofMembers name members, ?_, ?_, by simp [start],
    by simp [start]⟩
  · intro c hc
    obtain ⟨m, hm, rfl⟩ := List.mem_map.mp hc
    obtain ⟨ch, label, capacity, hch, hcreate⟩ := hchannels m hm
    obtain ⟨hkept, -, -, -, hempty, -⟩ := Channel.kept_of_create hcreate
    refine ⟨ch, hch, (ChannelTable.blockOf_of_getElem? hch).symm, ⟨hkept, le_rfl, nofun, ?_⟩⟩
    exact List.length_eq_zero_iff.mp (hkept.sound.length_contents.trans hempty)
  · have hheld : (start name members table w).bundle.held = [] := by
      simp [start, OutputBundle.held, hexternal, hinternal]
    rw [hheld]
    rfl
  · intro hseen
    cases hsaw.symm.trans hseen
  · intro hdone
    cases hended.symm.trans hdone

/-- Every complete row of blocks is sent, once and in order.  At every moment the same number of
blocks has been taken from each channel.  The frames that were written are the first rows of the
blocks that the channels have got; those after them that were taken are in the two buffers; no step
fails; and where the bundle has said that it has ended, it has sent as many frames as the channel
with the fewest blocks has got, and will ever get. -/
theorem blocks_sent (name : String) (hnodup : (members.map Prod.fst).Nodup)
    (hchannels : ∀ m ∈ members, ∃ ch label capacity,
      table[m.1]? = some ch ∧ Channel.create label capacity m.2 = .ok ch)
    (htr : tr.Unfailing (frameLength t members) usable) (hw : usable w)
    (moves : List (Intake.Move t))
    (hmoves : ∀ m ∈ moves, m.readsFrom (members.map Prod.fst) = false) :
    let s := (start name members table w).run tr moves
    ∃ k,
      (∀ m ∈ members, k ≤ (s.given m.1).length ∧
        s.table.contentsOf m.1 = ((s.given m.1).drop k).flatten) ∧
      s.written =
        (List.range s.bundle.frames).map (fun i => (s.row i).frame (members.map Prod.fst)) ∧
      k = s.bundle.frames + s.bundle.externalFilled.toNat + s.bundle.internalFilled.toNat ∧
      (∀ a ∈ s.answers, ∃ outcome, a = .ok outcome) ∧
      (.ok .ended ∈ s.answers →
        (members.map fun m => (s.given m.1).length).min? = some s.bundle.frames) := by
  intro s
  have hstart : Drawn usable (members.map Prod.fst) table.blockOf (frameLength t members)
      (start name members table w) 0 := drawn_start hchannels hw
  obtain ⟨k, h⟩ := hstart.run hnodup htr hmoves
  have hall : s.written.length + s.bundle.held.length = k := by
    simpa using congrArg List.length h.stream
  refine ⟨k, ?_, ?_, ?_, h.answers_ok, ?_⟩
  · intro m hm
    exact h.yields.contentsOf_eq (List.mem_map_of_mem hm)
  · have hfirst := congrArg (List.take s.written.length) h.stream
    rw [List.take_left, ← List.map_take, List.take_range, Nat.min_eq_left (by omega)] at hfirst
    rw [h.count]
    exact hfirst
  · rw [← hall, OutputBundle.length_held, h.count, Nat.add_assoc]
  · intro hanswer
    obtain ⟨hsaw, hheld⟩ := h.done (h.answer_ended hanswer)
    obtain ⟨c, hc, -, hlength⟩ := h.seen hsaw
    have hk : k = s.bundle.frames := by
      rw [← hall, hheld, h.count]
      rfl
    rw [List.min?_eq_some_iff, ← hk]
    refine ⟨?_, ?_⟩
    · obtain ⟨m, hm, rfl⟩ := List.mem_map.mp hc
      exact List.mem_map.mpr ⟨m, hm, hlength⟩
    · intro n hn
      obtain ⟨m, hm, rfl⟩ := List.mem_map.mp hn
      exact (h.yields.contentsOf_eq (List.mem_map_of_mem hm)).1

/-- The new channels of two members.  The first has room for one block only. -/
def pairedChannels : ChannelTable (Sample .i16) :=
  (Std.ExtTreeMap.empty.insert ⟨0⟩ { name := "narrow", capacity := 1, block := 1 }).insert ⟨1⟩
    { name := "wide", capacity := 6, block := 2 }

/-- The wide channel gets three blocks before the narrow one gets its second and last; its writer
goes on after the bundle has seen the end of the other. -/
def pairedMoves : List (Intake.Move .i16) :=
  [.step] ++
    [⟨0⟩, ⟨1⟩].flatMap (fun c =>
      [.call c .openRing, .call c (.attach false), .call c (.awaitAttached false)]) ++
    [.call ⟨1⟩ (.tryWrite [1, 2]), .call ⟨1⟩ (.tryWrite [3, 4]), .step,
      .call ⟨1⟩ (.tryWrite [5, 6]), .call ⟨0⟩ (.tryWrite [7]), .call ⟨0⟩ (.tryWrite [8]), .step,
      .call ⟨0⟩ (.tryWrite [8]), .call ⟨0⟩ .close, .step, .step, .step,
      .call ⟨1⟩ (.tryWrite [9, 9]), .step, .step, .step]

/-- The run of the bundle at a gate that is shut at the first look. -/
def pairedRun : Outlet .i16 Gate :=
  (start "out" Loop.twoLanes pairedChannels Loop.laneSink).run Gate.transport pairedMoves

/-- Two frames are sent, one for each block of the narrow channel.  Two blocks of the wide
one stay behind. -/
theorem blocks_sent_paired :
    .ok .ended ∈ pairedRun.answers ∧ pairedRun.written = [[7, 0, 1, 0, 2, 0], [8, 0, 3, 0, 4, 0]] ∧
      pairedRun.given ⟨0⟩ = [[7], [8]] ∧ (pairedRun.given ⟨1⟩).length = 4 ∧
      (Loop.twoLanes.map fun m => (pairedRun.given m.1).length).min? = some 2 := by
  have hended : .ok .ended ∈ pairedRun.answers := by decide
  have hfound : Loop.twoLanes.all (fun m => pairedChannels[m.1]?.any fun ch =>
      decide (Channel.create ch.name ch.capacity m.2 = .ok ch)) = true := by decide
  have hchannels : ∀ m ∈ Loop.twoLanes, ∃ ch label capacity,
      pairedChannels[m.1]? = some ch ∧ Channel.create label capacity m.2 = .ok ch := by
    intro m hm
    obtain ⟨ch, hch, hcreate⟩ := (Option.any_eq_true _ _).mp (List.all_eq_true.mp hfound m hm)
    exact ⟨ch, ch.name, ch.capacity, hch, of_decide_eq_true hcreate⟩
  have hsink : Loop.laneSink.IsPassable := by simp [Gate.IsPassable, Loop.laneSink]
  obtain ⟨k, -, hwritten, -, -, hleast⟩ := blocks_sent "out" (by decide) hchannels
    (Gate.takes (frameLength .i16 Loop.twoLanes)).unfailing hsink pairedMoves (by decide)
  have hframes : pairedRun.bundle.frames = 2 := by decide
  have hrows : (List.range 2).map (fun i => (pairedRun.row i).frame (Loop.twoLanes.map Prod.fst)) =
      [[7, 0, 1, 0, 2, 0], [8, 0, 3, 0, 4, 0]] := by decide
  refine ⟨hended, ?_, by decide, by decide, ?_⟩
  · rw [← hrows, ← hframes]
    exact hwritten
  · rw [← hframes]
    exact hleast hended

end Start

end Outlet

end Dataflow

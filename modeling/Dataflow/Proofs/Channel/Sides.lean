import Dataflow.Proofs.Channel.Fifo
import Dataflow.Proofs.Channel.Table

/-!
# The two sides of a channel

A channel from its creation on, whoever calls what: the ring is there once its signal was raised,
and it stays (`Channel.Kept`, `Kept.call`, `course_call`).

**Sides.**  The holder of either end has calls of its own (`Call.ofWriter`, `Call.ofReader`).  Only
the reader ends the wait for itself (`attached_call`).

**Tables.**  `ChannelTable.called`: one call on one channel of a table.
-/

namespace Dataflow

section Defs

variable {α : Type}

/-- Whether a call is one that the holder of the writing end makes. -/
def Call.ofWriter : Call α → Bool
  | .openRing | .awaitAttached _ | .tryWrite _ | .close | .dropWriter => true
  | _ => false

/-- Whether a call is one that the holder of the reading end makes. -/
def Call.ofReader : Call α → Bool
  | .attach _ | .tryRead _ | .close | .dropReader => true
  | _ => false

/-- Whether a call puts samples into the channel. -/
def Call.isWrite : Call α → Bool
  | .tryWrite _ => true
  | _ => false

/-- Whether a call closes the channel. -/
def Call.closes : Call α → Bool
  | .close | .dropWriter | .dropReader => true
  | _ => false

/-- A channel in the course of its life. -/
structure Channel.Kept (c : Channel α) : Prop where
  sound : c.Sound
  met : c.Met
  ring : c.ring = none → c.ready = .idle ∨ c.ready = .lost

/-- The table after a call on a channel. -/
def ChannelTable.called [Inhabited α] (t : ChannelTable α) (id : NodeId) (call : Call α) :
    ChannelTable α :=
  t.change id fun c => (c.call call).2

end Defs

namespace Channel

section Calls

variable {α : Type} [Inhabited α] {c : Channel α}

omit [Inhabited α] in
theorem kept_of_create {name : String} {capacity block : Nat}
    (h : create name capacity block = .ok c) :
    c.Kept ∧ c.state = .uninitialized ∧ c.ready = .idle ∧ c.attached = .idle ∧ c.available = 0 ∧
      c.block = block := by
  unfold create at h
  split at h
  · cases h
  · rename_i hvalid
    cases h
    refine ⟨⟨⟨?_, ?_, Nat.dvd_zero _, Nat.zero_le _, ?_, fun _ => rfl, (Nat.zero_mod _).symm⟩,
      ⟨fun _ => .inl rfl, by simp, by simp, by simp, by simp⟩, fun _ => .inl rfl⟩,
      rfl, rfl, rfl, rfl, rfl⟩
    · dsimp only
      omega
    · dsimp only
      omega
    · rintro ring ⟨⟩

/-- How a channel goes on: a ring stays, and as long as there is none the signal that it is there
is not raised. -/
structure Course (c c' : Channel α) : Prop where
  block : c'.block = c.block
  stays : c.ring ≠ none → c'.ring ≠ none
  silent : c'.ring = none → c.ready = .idle ∨ c.ready = .lost → c'.ready = .idle ∨ c'.ready = .lost

namespace Course

variable {c' : Channel α}

omit [Inhabited α]

theorem of_eq (hblock : c'.block = c.block) (hring : c'.ring = c.ring)
    (hready : c'.ready = c.ready) : Course c c' :=
  ⟨hblock, fun h => hring ▸ h, fun _ h => hready ▸ h⟩

theorem of_ne_none (hblock : c'.block = c.block) (hring : c'.ring ≠ none) : Course c c' :=
  ⟨hblock, fun _ => hring, fun hnone => absurd hnone hring⟩

theorem of_raised (hblock : c'.block = c.block) (hring : c'.ring = c.ring)
    (hraised : c.ready = .raised) : Course c c' := by
  refine ⟨hblock, fun h => hring ▸ h, ?_⟩
  rintro - (hready | hready)
  · cases hraised.symm.trans hready
  · cases hraised.symm.trans hready

end Course

theorem course_call (c : Channel α) (call : Call α) : Course c (c.call call).2 := by
  cases call with
  | openRing =>
      show Course c c.openRing.2
      rcases c.openRing_cases with ⟨-, -, heq⟩ | ⟨-, -, heq⟩ | ⟨r, -, heq⟩
      · rw [heq]
        exact .of_ne_none rfl (Option.some_ne_none _)
      · rw [heq]
        exact .of_ne_none rfl (Option.some_ne_none _)
      · rw [heq]
        exact .of_eq rfl rfl rfl
  | attach cancelled =>
      show Course c (c.attach cancelled).2
      rcases c.attach_cases cancelled with ⟨hraised, -, heq⟩ | ⟨hraised, -, heq⟩ | ⟨r, -, heq⟩
      · rw [heq]
        exact .of_raised rfl rfl hraised
      · rw [heq]
        exact .of_raised rfl rfl hraised
      · rw [heq]
        exact .of_eq rfl rfl rfl
  | awaitAttached cancelled =>
      show Course c (c.awaitAttached cancelled).2
      rcases c.awaitAttached_cases cancelled with heq | ⟨r, -, heq⟩
      · rw [heq]
        exact .of_eq rfl rfl rfl
      · rw [heq]
        exact .of_eq rfl rfl rfl
  | tryWrite samples =>
      show Course c (c.tryWrite samples).2
      rcases c.tryWrite_cases samples with ⟨ring, -, -, -, -, heq⟩ | ⟨r, -, -, heq⟩
      · rw [heq]
        exact .of_ne_none rfl (Option.some_ne_none _)
      · rw [heq]
        exact .of_eq rfl rfl rfl
  | tryRead out =>
      show Course c (c.tryRead out).2.2
      rcases c.tryRead_cases out with ⟨ring, -, -, heq⟩ | ⟨r, -, -, heq⟩
      · rw [heq]
        exact .of_eq rfl rfl rfl
      · rw [heq]
        exact .of_eq rfl rfl rfl
  | close => exact .of_eq rfl rfl rfl
  | dropWriter =>
      refine ⟨rfl, id, ?_⟩
      rintro - (hready | hready)
      · exact .inr (congrArg Signal.abandon hready)
      · exact .inr (congrArg Signal.abandon hready)
  | dropReader => exact .of_eq rfl rfl rfl

/-- Every call leaves whole blocks in the ring. -/
theorem Sound.call (h : c.Sound) (call : Call α) : (c.call call).2.Sound := by
  cases hdone : (c.call call).1.isDone with
  | false => exact (keeps_call h call hdone).sound
  | true =>
      -- only a transfer is ever done
      cases call with
      | tryWrite samples =>
          show (c.tryWrite samples).2.Sound
          rcases c.tryWrite_cases samples with ⟨ring, hring, -, -, hroom, heq⟩ | ⟨r, -, -, heq⟩
          · rw [heq]
            exact h.push hring hroom
          · rw [heq]
            exact h
      | tryRead out =>
          show (c.tryRead out).2.2.Sound
          rcases c.tryRead_cases out with ⟨ring, -, hlong, heq⟩ | ⟨r, -, -, heq⟩
          · rw [heq]
            exact h.pop hlong
          · rw [heq]
            exact h
      | _ => cases hdone

/-- A call that is no write only takes samples from the front. -/
theorem Sound.contents_call (h : c.Sound) {call : Call α} (hcall : call.isWrite = false) :
    c.contents = (c.call call).1.taken ++ (c.call call).2.contents := by
  cases hdone : (c.call call).1.isDone with
  | false =>
      rw [taken_of_not_done hdone, (keeps_call h call hdone).contents]
      rfl
  | true =>
      cases call with
      | tryWrite samples => cases hcall
      | tryRead out =>
          rcases c.tryRead_cases out with ⟨ring, hring, hlong, heq⟩ | ⟨r, hr, -, heq⟩
          · simp only [Channel.call, heq]
            exact h.contents_popped hring hlong
          · simp only [Channel.call, heq] at hdone
            exact absurd (Reply.isDone_read.mp hdone) hr
      | _ => cases hdone

/-- A channel stays open until somebody closes it. -/
theorem state_call_ne_closed (h : c.state ≠ .closed) {call : Call α} (hcall : call.closes = false) :
    (c.call call).2.state ≠ .closed := by
  cases call with
  | openRing =>
      show c.openRing.2.state ≠ .closed
      rcases c.openRing_cases with ⟨-, -, heq⟩ | ⟨-, -, heq⟩ | ⟨r, -, heq⟩
      · rw [heq]
        simp
      · rw [heq]
        exact h
      · rw [heq]
        exact h
  | attach cancelled =>
      show (c.attach cancelled).2.state ≠ .closed
      rcases c.attach_cases cancelled with ⟨-, -, heq⟩ | ⟨-, -, heq⟩ | ⟨r, -, heq⟩
      · rw [heq]
        simp
      · rw [heq]
        exact h
      · rw [heq]
        exact h
  | awaitAttached cancelled =>
      show (c.awaitAttached cancelled).2.state ≠ .closed
      rcases c.awaitAttached_cases cancelled with heq | ⟨r, -, heq⟩
      · rw [heq]
        exact h
      · rw [heq]
        exact h
  | tryWrite samples =>
      show (c.tryWrite samples).2.state ≠ .closed
      rcases c.tryWrite_cases samples with ⟨ring, -, -, -, -, heq⟩ | ⟨r, -, -, heq⟩
      · rw [heq]
        exact h
      · rw [heq]
        exact h
  | tryRead out =>
      show (c.tryRead out).2.2.state ≠ .closed
      rcases c.tryRead_cases out with ⟨ring, -, -, heq⟩ | ⟨r, -, -, heq⟩
      · rw [heq]
        exact h
      · rw [heq]
        exact h
  | _ => cases hcall

theorem Live.call (h : c.Live) (call : Call α) : (c.call call).2.Live := by
  have hring : c.ring ≠ none := Option.ne_none_iff_exists'.mpr h.ring
  exact ⟨h.sound.call call, Option.ne_none_iff_exists'.mp ((c.course_call call).stays hring)⟩

namespace Kept

theorem call (h : c.Kept) (call : Call α) : (c.call call).2.Kept := by
  have hcourse := c.course_call call
  refine ⟨h.sound.call call, h.met.call call, ?_⟩
  intro hring
  refine hcourse.silent hring (h.ring ?_)
  by_contra hsome
  exact hcourse.stays hsome hring

omit [Inhabited α] in
theorem live (h : c.Kept) (hring : c.ring ≠ none) : c.Live :=
  ⟨h.sound, Option.ne_none_iff_exists'.mp hring⟩

omit [Inhabited α] in
/-- From the meeting of its two sides up to its end, a channel has its ring. -/
theorem ring_of_open (h : c.Kept) (hstate : c.state = .attaching ∨ c.state = .steady) :
    c.ring ≠ none := by
  intro hnone
  rcases h.ring hnone with hready | hready
  · rcases h.met.idle hready with hs | hs <;> simp [hs] at hstate
  · simp [h.met.lost hready] at hstate

theorem ring_openRing (h : c.Kept) (hok : c.openRing.1 = .ok ()) : c.openRing.2.ring ≠ none := by
  unfold openRing at hok ⊢
  split
  · dsimp only
    split <;> exact Option.some_ne_none _
  · rename_i hready
    rw [if_neg hready] at hok
    split
    · rename_i hclosed
      rw [if_pos hclosed] at hok
      cases hok
    · rename_i hclosed
      intro hnone
      rcases h.ring hnone with hidle | hlost
      · exact hready hidle
      · exact hclosed (by simp [isClosed, h.met.lost hlost])

end Kept

omit [Inhabited α] in
/-- A reader that has not attached yet attaches to a channel that was opened. -/
theorem of_attach_ok {cancelled : Bool} (hidle : c.attached = .idle)
    (hok : (c.attach cancelled).1 = some (.ok ())) :
    c.ready = .raised ∧ (c.attach cancelled).2.state = .steady := by
  unfold attach attachAmong at hok ⊢
  simp only [hidle, if_true, Scene.await, pollUntil, Scene.attempt, seekReady] at hok ⊢
  cases cancelled with
  | true => cases hok
  | false =>
      cases hready : c.ready with
      | raised =>
          by_cases hstate : c.state = .attaching
          · simp [hstate]
          · simp [hready, hstate] at hok
      | _ => simp [hready] at hok

omit [Inhabited α] in
theorem awaitAttached_of_attached_idle {cancelled : Bool} (hidle : c.attached = .idle) :
    (c.awaitAttached cancelled).2 = c := by
  unfold awaitAttached awaitAttachedAmong
  simp only [hidle, reduceCtorEq, if_false]
  by_cases hready : c.ready = .idle
  · simp [hready]
  · cases cancelled <;>
      simp [hready, Scene.await, pollUntil, Scene.attempt, seekAttached, hidle]

/-- A call that waits changes nothing. -/
theorem call_of_waits {call : Call α} (h : (c.call call).1 = .meeting none) :
    (c.call call).2 = c := by
  cases call with
  | openRing => cases h
  | attach cancelled =>
      have hnone : (c.attach cancelled).1 = none := Reply.meeting.inj h
      show (c.attach cancelled).2 = c
      rcases c.attach_cases cancelled with ⟨-, -, heq⟩ | ⟨-, -, heq⟩ | ⟨r, -, heq⟩
      · rw [heq] at hnone
        cases hnone
      · rw [heq] at hnone
        cases hnone
      · rw [heq]
  | awaitAttached cancelled =>
      have hnone : (c.awaitAttached cancelled).1 = none := Reply.meeting.inj h
      show (c.awaitAttached cancelled).2 = c
      rcases c.awaitAttached_cases cancelled with heq | ⟨r, -, heq⟩
      · rw [heq] at hnone
        cases hnone
      · rw [heq]
  | _ => cases h

/-- The writer does not attach for the reader. -/
theorem attached_call (hidle : c.attached = .idle) {call : Call α} (hcall : call.ofWriter = true) :
    (c.call call).2.attached = .idle := by
  cases call with
  | openRing =>
      show c.openRing.2.attached = .idle
      rcases c.openRing_cases with ⟨-, -, heq⟩ | ⟨-, -, heq⟩ | ⟨r, -, heq⟩ <;> rw [heq]
        <;> exact hidle
  | awaitAttached cancelled =>
      show (c.awaitAttached cancelled).2.attached = .idle
      rw [awaitAttached_of_attached_idle hidle]
      exact hidle
  | tryWrite samples =>
      show (c.tryWrite samples).2.attached = .idle
      rcases c.tryWrite_cases samples with ⟨ring, -, -, -, -, heq⟩ | ⟨r, -, -, heq⟩ <;> rw [heq] <;>
        exact hidle
  | close => exact hidle
  | dropWriter => exact hidle
  | _ => cases hcall

end Calls

end Channel

namespace ChannelTable

variable {α : Type} [Inhabited α] {t : ChannelTable α} {id other : NodeId} {call : Call α}

theorem getElem?_called : (t.called id call)[other]? =
    if id = other then t[other]?.map fun c => (c.call call).2 else t[other]? := getElem?_change

theorem getElem?_called_self {c : Channel α} (h : t[id]? = some c) :
    (t.called id call)[id]? = some (c.call call).2 := by
  rw [getElem?_called, if_pos rfl, h]
  rfl

theorem getElem?_called_of_ne (h : id ≠ other) : (t.called id call)[other]? = t[other]? :=
  getElem?_change_of_ne h

@[simp] theorem blockOf_called : (t.called id call).blockOf other = t.blockOf other :=
  blockOf_change fun c => (c.course_call call).block

end ChannelTable

end Dataflow

import Dataflow.Proofs.Channel.Call

/-!
# Meeting and parting

The calls that move no samples: opening, attaching, waiting for the other side, closing and
letting go.  Each changes the stage and the signals of a channel only, apart from the ring that
opening allocates.

**Signals.**  The stage and the signals of a channel agree (`Channel.Met`).  So whoever is told that
the channel is closed is told the truth (`closed_of_isClosed`), and a closed channel stays closed
(`state_call_of_closed`).
-/

namespace Dataflow

namespace Signal

theorem abandon_eq_received {s : Signal} : s.abandon = .received ↔ s = .received := by
  cases s <;> simp [abandon]

theorem abandon_ne_idle (s : Signal) : s.abandon ≠ .idle := by
  cases s <;> simp [abandon]

end Signal

namespace Channel

section Defs

variable {α : Type}

/-- The channel with a ring. -/
def allocated [Inhabited α] (c : Channel α) : Channel α :=
  { c with ring := some (c.ring.getD (.replicate c.capacity default)) }

/-- The stage of a channel is one that its signals allow. -/
structure Met (c : Channel α) : Prop where
  idle : c.ready = .idle → c.state = .uninitialized ∨ c.state = .closed
  raised : c.ready = .raised → c.state = .attaching ∨ c.state = .closed
  received : c.ready = .received → c.attached ≠ .idle
  lost : c.ready = .lost → c.state = .closed
  gone : c.attached = .lost → c.state = .closed

end Defs

section Inversion

variable {α : Type} [Inhabited α] (c : Channel α)

theorem openRing_cases :
    (c.ready = .idle ∧ c.state = .uninitialized ∧
      c.openRing = (.ok (), { c.allocated with state := .attaching, ready := .raised })) ∨
    (c.ready = .idle ∧ c.state ≠ .uninitialized ∧
      c.openRing = (.error .closed, { c.allocated with ready := .lost })) ∨
    ∃ r, (r = .error .closed → c.state = .closed) ∧ c.openRing = (r, c) := by
  unfold openRing
  split
  · rename_i hidle
    dsimp only
    split
    · rename_i hstate
      exact .inl ⟨hidle, hstate, rfl⟩
    · rename_i hstate
      exact .inr (.inl ⟨hidle, hstate, rfl⟩)
  · split
    · rename_i hclosed
      exact .inr (.inr ⟨_, fun _ => by simpa [isClosed] using hclosed, rfl⟩)
    · exact .inr (.inr ⟨_, by simp, rfl⟩)

omit [Inhabited α] in
theorem attach_cases (cancelled : Bool) :
    (c.ready = .raised ∧ c.state = .attaching ∧
      c.attach cancelled =
        (some (.ok ()), { c with state := .steady, ready := .received, attached := .raised })) ∨
    (c.ready = .raised ∧ c.state ≠ .attaching ∧
      c.attach cancelled =
        (some (.error .closed), { c with ready := .received, attached := .lost })) ∨
    ∃ r, (r = some (.error .closed) →
        c.ready = .lost ∨ c.ready = .received ∧ c.attached = .idle) ∧
      c.attach cancelled = (r, c) := by
  unfold attach attachAmong
  dsimp only
  split
  · rename_i hidle
    unfold Scene.await pollUntil Scene.attempt seekReady
    cases cancelled with
    | true => exact .inr (.inr ⟨_, by simp, rfl⟩)
    | false =>
        cases hready : c.ready with
        | idle => exact .inr (.inr ⟨none, by simp, by simp⟩)
        | raised =>
            by_cases hstate : c.state = .attaching
            · exact .inl ⟨rfl, hstate, by simp [hstate]⟩
            · exact .inr (.inl ⟨rfl, hstate, by simp [hstate]⟩)
        | received =>
            exact .inr (.inr ⟨some (.error .closed), fun _ => .inr ⟨rfl, hidle⟩, by simp⟩)
        | lost => exact .inr (.inr ⟨some (.error .closed), fun _ => .inl rfl, by simp⟩)
  · split
    · exact .inr (.inr ⟨_, by simp, rfl⟩)
    · exact .inr (.inr ⟨_, by simp, rfl⟩)
    · exact .inr (.inr ⟨_, by simp, rfl⟩)

omit [Inhabited α] in
theorem awaitAttached_cases (cancelled : Bool) :
    c.awaitAttached cancelled = (some (.ok ()), { c with attached := .received }) ∨
    ∃ r, (r = some (.error .closed) → c.attached = .lost) ∧
      c.awaitAttached cancelled = (r, c) := by
  unfold awaitAttached awaitAttachedAmong
  dsimp only
  split
  · exact .inr ⟨_, by simp, rfl⟩
  · rename_i hreceived
    split
    · exact .inr ⟨_, by simp, rfl⟩
    · unfold Scene.await pollUntil Scene.attempt seekAttached
      cases cancelled with
      | true => exact .inr ⟨_, by simp, rfl⟩
      | false =>
          cases hattached : c.attached with
          | idle => exact .inr ⟨none, by simp, by simp⟩
          | raised => exact .inl (by simp)
          | received => exact absurd hattached hreceived
          | lost => exact .inr ⟨some (.error .closed), fun _ => rfl, by simp⟩

end Inversion

section Samples

variable {α : Type} [Inhabited α] {c c' : Channel α}

/-- The samples on their way are the same. -/
structure Keeps (c c' : Channel α) : Prop where
  capacity : c'.capacity = c.capacity
  block : c'.block = c.block
  available : c'.available = c.available
  contents : c'.contents = c.contents
  sound : c'.Sound

theorem Sound.keeps (hc : c.Sound) : Keeps c c := ⟨rfl, rfl, rfl, rfl, hc⟩

/-- A fresh ring holds no samples yet. -/
theorem Sound.allocated (hc : c.Sound) : Keeps c c.allocated := by
  have hcontents : c.allocated.contents = c.contents := by
    unfold Channel.contents Channel.allocated
    cases hring : c.ring with
    | none => simp [hc.empty hring, readRing]
    | some ring => rfl
  refine ⟨rfl, rfl, rfl, hcontents, ?_⟩
  refine ⟨hc.block_pos, hc.block_le, hc.whole, hc.fits, ?_, ?_, hc.cursor⟩
  · rintro ring ⟨⟩
    cases hring : c.ring with
    | none => exact Array.size_replicate
    | some ring => exact hc.size hring
  · rintro ⟨⟩

theorem Keeps.trans_same (h : Keeps c c') {c'' : Channel α} (h' : SameQueue c' c'') :
    Keeps c c'' where
  capacity := h'.capacity.trans h.capacity
  block := h'.block.trans h.block
  available := h'.available.trans h.available
  contents := h'.contents_eq.trans h.contents
  sound := h'.sound h.sound

theorem keeps_openRing (hc : c.Sound) : Keeps c c.openRing.2 := by
  rcases c.openRing_cases with ⟨-, -, h⟩ | ⟨-, -, h⟩ | ⟨r, -, h⟩
  · rw [h]
    exact hc.allocated.trans_same ⟨rfl, rfl, rfl, rfl, rfl, rfl⟩
  · rw [h]
    exact hc.allocated.trans_same ⟨rfl, rfl, rfl, rfl, rfl, rfl⟩
  · rw [h]
    exact hc.keeps

theorem keeps_attach (hc : c.Sound) (cancelled : Bool) : Keeps c (c.attach cancelled).2 := by
  rcases c.attach_cases cancelled with ⟨-, -, h⟩ | ⟨-, -, h⟩ | ⟨r, -, h⟩
  · rw [h]
    exact hc.keeps.trans_same ⟨rfl, rfl, rfl, rfl, rfl, rfl⟩
  · rw [h]
    exact hc.keeps.trans_same ⟨rfl, rfl, rfl, rfl, rfl, rfl⟩
  · rw [h]
    exact hc.keeps

theorem keeps_awaitAttached (hc : c.Sound) (cancelled : Bool) :
    Keeps c (c.awaitAttached cancelled).2 := by
  rcases c.awaitAttached_cases cancelled with h | ⟨r, -, h⟩
  · rw [h]
    exact hc.keeps.trans_same ⟨rfl, rfl, rfl, rfl, rfl, rfl⟩
  · rw [h]
    exact hc.keeps

/-- A call that moves no block leaves the samples alone. -/
theorem keeps_call (hc : c.Sound) (call : Call α) (hnot : (c.call call).1.isDone = false) :
    Keeps c (c.call call).2 := by
  cases call with
  | openRing => exact keeps_openRing hc
  | attach cancelled => exact keeps_attach hc cancelled
  | awaitAttached cancelled => exact keeps_awaitAttached hc cancelled
  | tryWrite samples =>
      rcases c.tryWrite_cases samples with ⟨ring, -, -, -, -, h⟩ | ⟨r, -, -, h⟩
      · simp [call, h, Reply.isDone] at hnot
      · simp only [call, h]
        exact hc.keeps
  | tryRead out =>
      rcases c.tryRead_cases out with ⟨ring, -, -, h⟩ | ⟨r, -, -, h⟩
      · simp [call, h, Reply.isDone] at hnot
      · simp only [call, h]
        exact hc.keeps
  | close => exact hc.keeps.trans_same ⟨rfl, rfl, rfl, rfl, rfl, rfl⟩
  | dropWriter => exact hc.keeps.trans_same ⟨rfl, rfl, rfl, rfl, rfl, rfl⟩
  | dropReader => exact hc.keeps.trans_same ⟨rfl, rfl, rfl, rfl, rfl, rfl⟩

end Samples

section Stages

variable {α : Type} {c : Channel α}

theorem met_of_closed (hclosed : c.state = .closed)
    (hreceived : c.ready = .received → c.attached ≠ .idle) : c.Met :=
  ⟨fun _ => .inr hclosed, fun _ => .inr hclosed, hreceived, fun _ => hclosed, fun _ => hclosed⟩

theorem Met.attach (h : c.Met) (cancelled : Bool) : (c.attach cancelled).2.Met := by
  rcases c.attach_cases cancelled with ⟨-, -, heq⟩ | ⟨hraised, hstate, heq⟩ | ⟨r, -, heq⟩
  · rw [heq]
    exact ⟨by simp, by simp, by simp, by simp, by simp⟩
  · rw [heq]
    exact met_of_closed ((h.raised hraised).resolve_left hstate) (by simp)
  · rw [heq]
    exact h

theorem Met.awaitAttached (h : c.Met) (cancelled : Bool) : (c.awaitAttached cancelled).2.Met := by
  rcases c.awaitAttached_cases cancelled with heq | ⟨r, -, heq⟩
  · rw [heq]
    exact ⟨h.idle, h.raised, by simp, h.lost, by simp⟩
  · rw [heq]
    exact h

variable [Inhabited α]

theorem Met.openRing (h : c.Met) : c.openRing.2.Met := by
  rcases c.openRing_cases with ⟨-, hstate, heq⟩ | ⟨hidle, hstate, heq⟩ | ⟨r, -, heq⟩
  · -- a reader that was lost would have left the channel closed
    have hhere : c.attached ≠ .lost := by
      intro hgone
      rw [h.gone hgone] at hstate
      cases hstate
    rw [heq]
    exact ⟨by simp, by simp, by simp, by simp, fun hgone => absurd hgone hhere⟩
  · rw [heq]
    exact met_of_closed ((h.idle hidle).resolve_left hstate) (by simp)
  · rw [heq]
    exact h

/-- Every call leaves stage and signals in agreement. -/
theorem Met.call (h : c.Met) (call : Call α) : (c.call call).2.Met := by
  cases call with
  | openRing => exact h.openRing
  | attach cancelled => exact h.attach cancelled
  | awaitAttached cancelled => exact h.awaitAttached cancelled
  | tryWrite samples =>
      show (c.tryWrite samples).2.Met
      rcases c.tryWrite_cases samples with ⟨ring, -, -, -, -, heq⟩ | ⟨r, -, -, heq⟩
      · rw [heq]
        exact ⟨h.idle, h.raised, h.received, h.lost, h.gone⟩
      · rw [heq]
        exact h
  | tryRead out =>
      show (c.tryRead out).2.2.Met
      rcases c.tryRead_cases out with ⟨ring, -, -, heq⟩ | ⟨r, -, -, heq⟩
      · rw [heq]
        exact ⟨h.idle, h.raised, h.received, h.lost, h.gone⟩
      · rw [heq]
        exact h
  | close => exact met_of_closed rfl h.received
  | dropWriter =>
      exact met_of_closed rfl fun hready => h.received (Signal.abandon_eq_received.mp hready)
  | dropReader => exact met_of_closed rfl fun _ => Signal.abandon_ne_idle _

/-- A closed channel stays closed. -/
theorem state_call_of_closed (hclosed : c.state = .closed) (call : Call α) :
    (c.call call).2.state = .closed := by
  cases call with
  | openRing =>
      show c.openRing.2.state = .closed
      rcases c.openRing_cases with ⟨-, hstate, heq⟩ | ⟨-, -, heq⟩ | ⟨r, -, heq⟩
      · rw [hclosed] at hstate
        cases hstate
      · rw [heq]
        exact hclosed
      · rw [heq]
        exact hclosed
  | attach cancelled =>
      show (c.attach cancelled).2.state = .closed
      rcases c.attach_cases cancelled with ⟨-, hstate, heq⟩ | ⟨-, -, heq⟩ | ⟨r, -, heq⟩
      · rw [hclosed] at hstate
        cases hstate
      · rw [heq]
        exact hclosed
      · rw [heq]
        exact hclosed
  | awaitAttached cancelled =>
      show (c.awaitAttached cancelled).2.state = .closed
      rcases c.awaitAttached_cases cancelled with heq | ⟨r, -, heq⟩
      · rw [heq]
        exact hclosed
      · rw [heq]
        exact hclosed
  | tryWrite samples =>
      show (c.tryWrite samples).2.state = .closed
      rcases c.tryWrite_cases samples with ⟨ring, -, -, -, -, heq⟩ | ⟨r, -, -, heq⟩
      · rw [heq]
        exact hclosed
      · rw [heq]
        exact hclosed
  | tryRead out =>
      show (c.tryRead out).2.2.state = .closed
      rcases c.tryRead_cases out with ⟨ring, -, -, heq⟩ | ⟨r, -, -, heq⟩
      · rw [heq]
        exact hclosed
      · rw [heq]
        exact hclosed
  | close => rfl
  | dropWriter => rfl
  | dropReader => rfl

/-- Whoever is told that the channel is closed is told the truth. -/
theorem Met.closed_of_isClosed (h : c.Met) (call : Call α)
    (htold : (c.call call).1.isClosed = true) : (c.call call).2.state = .closed := by
  cases call with
  | openRing =>
      have hr := Option.some.inj (Reply.isClosed_meeting.mp htold)
      show c.openRing.2.state = .closed
      rcases c.openRing_cases with ⟨-, -, heq⟩ | ⟨hidle, hstate, heq⟩ | ⟨r, hclosed, heq⟩
      · rw [heq] at hr
        cases hr
      · rw [heq]
        exact (h.idle hidle).resolve_left hstate
      · rw [heq] at hr ⊢
        exact hclosed hr
  | attach cancelled =>
      have hr := Reply.isClosed_meeting.mp htold
      show (c.attach cancelled).2.state = .closed
      rcases c.attach_cases cancelled with ⟨-, -, heq⟩ | ⟨hraised, hstate, heq⟩ | ⟨r, hclosed, heq⟩
      · rw [heq] at hr
        cases hr
      · rw [heq]
        exact (h.raised hraised).resolve_left hstate
      · rw [heq] at hr ⊢
        -- the signal was taken by an attachment, which has left one of its own
        rcases hclosed hr with hlost | ⟨hreceived, hidle⟩
        · exact h.lost hlost
        · exact absurd hidle (h.received hreceived)
  | awaitAttached cancelled =>
      have hr := Reply.isClosed_meeting.mp htold
      show (c.awaitAttached cancelled).2.state = .closed
      rcases c.awaitAttached_cases cancelled with heq | ⟨r, hclosed, heq⟩
      · rw [heq] at hr
        cases hr
      · rw [heq] at hr ⊢
        exact h.gone (hclosed hr)
  | tryWrite samples =>
      have hr := Reply.isClosed_wrote.mp htold
      show (c.tryWrite samples).2.state = .closed
      rcases c.tryWrite_cases samples with ⟨ring, -, -, -, -, heq⟩ | ⟨r, -, hclosed, heq⟩
      · rw [heq] at hr
        cases hr
      · rw [heq] at hr ⊢
        exact hclosed hr
  | tryRead out =>
      have hr := Reply.isClosed_read.mp htold
      show (c.tryRead out).2.2.state = .closed
      rcases c.tryRead_cases out with ⟨ring, -, -, heq⟩ | ⟨r, -, hclosed, heq⟩
      · rw [heq] at hr
        cases hr
      · rw [heq] at hr ⊢
        exact (hclosed hr).2
  | close => cases htold
  | dropWriter => cases htold
  | dropReader => cases htold

end Stages

end Channel
end Dataflow

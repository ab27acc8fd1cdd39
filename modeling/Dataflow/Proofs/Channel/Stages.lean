import Dataflow.Proofs.Channel.Sides
import Mathlib.Data.List.Induction
import Mathlib.Data.List.Infix

/-!
# The life of a channel

The stage of a channel only moves forward, and no sample moves before its two sides have met,
whatever calls they make and in whatever order.

**Calls.**  `Channel.after` is a channel after some calls.  What happened in the course of them is
said by `Happened`, in terms of the calls before it.

**Memory.**  The signals of a channel remember what has happened to it (`Channel.Recalls`): the
signal of the writer, that the channel was opened; the signal of the reader, that the two sides have
met or that the reader was turned away.

**Waits.**  A call that waits looks again and again, and the other side makes calls in between.  It
ends like the last of its looks (`exists_look`).

**Results.**
* `rank_call_le`, `attach_of_becomes_steady`: the stage only moves forward, and only the reader
  makes a channel steady.
* `recalls_of_create`: the signals are a true memory.
* `channel_stages`: what holds at every moment in the life of a channel.
* `attach_ok_imp_wasSteady_iff`: a reader that is told that it has attached has met the writer,
  unless it was turned away before.
-/

namespace Dataflow

section Defs

/-- Position of a stage in the life of a channel. -/
def ChannelState.rank : ChannelState → Nat
  | .uninitialized => 0
  | .attaching => 1
  | .steady => 2
  | .closed => 3

/-- Whether a signal has been raised. -/
def Signal.isSent : Signal → Bool
  | .raised | .received => true
  | .idle | .lost => false

/-- A call of a given kind is one of some calls.  What kind a call is of may depend on
those before it. -/
def Happened {α : Type} (kind : List (Call α) → Call α → Prop) (calls : List (Call α)) : Prop :=
  ∃ before call rest, calls = before ++ call :: rest ∧ kind before call

/-- What the others do while somebody waits. -/
inductive Aside (α : Type) where
  | call (made : Call α)
  /-- The wait is called off. -/
  | cancel
deriving DecidableEq, Repr

variable {α : Type} [Inhabited α]

/-- The call, if it is one. -/
def Aside.made? : Aside α → Option (Call α)
  | .call made => some made
  | .cancel => none

/-- What others do, as a move between two looks. -/
def Aside.move : Aside α → Scene α → Scene α
  | .call made, s => { s with channel := (s.channel.call made).2 }
  | .cancel, s => { s with cancelled := true }

/-- A wait for the attempt `f` is over: it was called off, or the attempt tells something. -/
def Scene.Over {β γ : Type} (f : Channel α → Except ChannelError (Option β) × γ) (s : Scene α) :
    Prop :=
  s.cancelled = true ∨ (f s.channel).1 ≠ .ok none

namespace Channel

/-- A channel after calls. -/
def after (c : Channel α) (calls : List (Call α)) : Channel α :=
  calls.foldl (fun c call => (c.call call).2) c

/-- The channel has been steady at some moment. -/
def WasSteady (c : Channel α) (calls : List (Call α)) : Prop :=
  ∃ before, before <+: calls ∧ (c.after before).state = .steady

/-- The writer was told that it has opened the channel. -/
def Opened (c : Channel α) : List (Call α) → Prop :=
  Happened fun before call => call = .openRing ∧ (c.after before).openRing.1 = .ok ()

/-- The reader has attached and thereby made the channel steady. -/
def Joined (c : Channel α) : List (Call α) → Prop :=
  Happened fun before call => (c.after before).state ≠ .steady ∧
    ∃ cancelled, call = .attach cancelled ∧ ((c.after before).attach cancelled).2.state = .steady

/-- The reader of a channel that had been opened was told that the channel is closed. -/
def TurnedAway (c : Channel α) : List (Call α) → Prop :=
  Happened fun before call => c.Opened before ∧
    ∃ cancelled, call = .attach cancelled ∧
      ((c.after before).attach cancelled).1 = some (.error .closed)

/-- What the signals of a channel remember of the calls on it. -/
structure Recalls (c : Channel α) (calls : List (Call α)) : Prop where
  kept : (c.after calls).Kept
  opened : (c.after calls).ready.isSent = true ↔ c.Opened calls
  joined : (c.after calls).attached.isSent = true ↔ c.Joined calls
  turned : c.TurnedAway calls → (c.after calls).attached = .lost
  lost : (c.after calls).attached = .lost → .dropReader ∈ calls ∨ c.TurnedAway calls

/-- Stage and signals are the same. -/
structure SameStage (c c' : Channel α) : Prop where
  state : c'.state = c.state
  ready : c'.ready = c.ready
  attached : c'.attached = c.attached

end Channel

end Defs

namespace Signal

@[simp] theorem isSent_abandon (s : Signal) : s.abandon.isSent = s.isSent := by
  cases s <;> rfl

theorem isSent_iff {s : Signal} : s.isSent = true ↔ s = .raised ∨ s = .received := by
  cases s <;> simp [isSent]

end Signal

section Histories

variable {α : Type} {kind : List (Call α) → Call α → Prop} {calls : List (Call α)} {call : Call α}

theorem not_happened_nil : ¬ Happened kind [] := by
  rintro ⟨before, call, rest, heq, -⟩
  simp at heq

theorem happened_concat :
    Happened kind (calls ++ [call]) ↔ Happened kind calls ∨ kind calls call := by
  constructor
  · rintro ⟨before, made, rest, heq, hkind⟩
    cases rest using List.reverseRecOn with
    | nil =>
        obtain ⟨rfl, hlast⟩ := List.append_inj' heq rfl
        cases hlast
        exact .inr hkind
    | append_singleton rest last =>
        rw [← List.cons_append, ← List.append_assoc] at heq
        exact .inl ⟨before, made, rest, (List.append_inj' heq rfl).1, hkind⟩
  · rintro (⟨before, made, rest, rfl, hkind⟩ | hkind)
    · exact ⟨before, made, rest ++ [call], by simp, hkind⟩
    · exact ⟨calls, call, [], rfl, hkind⟩

theorem Happened.append (h : Happened kind calls) (more : List (Call α)) :
    Happened kind (calls ++ more) := by
  obtain ⟨before, made, rest, rfl, hkind⟩ := h
  exact ⟨before, made, rest ++ more, by simp, hkind⟩

variable [Inhabited α] {c : Channel α}

theorem Channel.after_append (calls more : List (Call α)) :
    c.after (calls ++ more) = (c.after calls).after more := List.foldl_append

theorem Channel.after_concat (calls : List (Call α)) (call : Call α) :
    c.after (calls ++ [call]) = ((c.after calls).call call).2 := c.after_append calls [call]

end Histories

namespace Channel

section Steps

variable {α : Type} {c : Channel α} {cancelled : Bool}

/-- A reader whose signal is spent only looks at the stage. -/
theorem attach_of_attached_ne_idle (h : c.attached ≠ .idle) :
    (c.attach cancelled).2 = c ∧ (c.attach cancelled).1 ≠ some (.error .closed) ∧
      (c.state = .steady ∨ c.state = .closed → (c.attach cancelled).1 = some (.ok ())) := by
  unfold attach attachAmong
  dsimp only
  rw [if_neg h]
  cases hstate : c.state <;> simp

/-- Waiting for the reader spends its signal, or changes nothing. -/
theorem attached_awaitAttached (c : Channel α) (cancelled : Bool) :
    c.attached = .raised ∧ (c.awaitAttached cancelled).2.attached = .received ∨
      (c.awaitAttached cancelled).2.attached = c.attached := by
  unfold awaitAttached awaitAttachedAmong
  dsimp only
  split
  · exact .inr rfl
  · split
    · exact .inr rfl
    · unfold Scene.await pollUntil Scene.attempt seekAttached
      cases cancelled with
      | true => exact .inr rfl
      | false => cases hattached : c.attached <;> simp [hattached]

/-- A writer is told that the reader has attached only where the signal says so. -/
theorem isSent_of_awaitAttached_ok (hok : (c.awaitAttached cancelled).1 = some (.ok ())) :
    c.attached.isSent = true := by
  unfold awaitAttached awaitAttachedAmong at hok
  dsimp only at hok
  split at hok
  · rename_i hreceived
    exact Signal.isSent_iff.mpr (.inr hreceived)
  · split at hok
    · cases hok
    · unfold Scene.await pollUntil Scene.attempt seekAttached at hok
      cases cancelled with
      | true => cases hok
      | false => cases hattached : c.attached <;> simp_all [Signal.isSent]

theorem ready_awaitAttached (c : Channel α) (cancelled : Bool) :
    (c.awaitAttached cancelled).2.ready = c.ready ∧
      (c.awaitAttached cancelled).2.state = c.state := by
  rcases c.awaitAttached_cases cancelled with heq | ⟨r, -, heq⟩
  · rw [heq]
    exact ⟨rfl, rfl⟩
  · rw [heq]
    exact ⟨rfl, rfl⟩

theorem sameStage_tryWrite (c : Channel α) (samples : List α) :
    SameStage c (c.tryWrite samples).2 := by
  rcases c.tryWrite_cases samples with ⟨ring, -, -, -, -, heq⟩ | ⟨r, -, -, heq⟩
  · rw [heq]
    exact ⟨rfl, rfl, rfl⟩
  · rw [heq]
    exact ⟨rfl, rfl, rfl⟩

variable [Inhabited α]

theorem sameStage_tryRead (c : Channel α) (out : List α) : SameStage c (c.tryRead out).2.2 := by
  rcases c.tryRead_cases out with ⟨ring, -, -, heq⟩ | ⟨r, -, -, heq⟩
  · rw [heq]
    exact ⟨rfl, rfl, rfl⟩
  · rw [heq]
    exact ⟨rfl, rfl, rfl⟩

theorem attached_openRing (c : Channel α) : c.openRing.2.attached = c.attached := by
  rcases c.openRing_cases with ⟨-, -, heq⟩ | ⟨-, -, heq⟩ | ⟨r, -, heq⟩
  · rw [heq]
    rfl
  · rw [heq]
    rfl
  · rw [heq]

/-- The stage of a channel never moves back. -/
theorem rank_call_le (c : Channel α) (call : Call α) :
    c.state.rank ≤ (c.call call).2.state.rank := by
  have hlast : c.state.rank ≤ ChannelState.closed.rank := by
    cases c.state <;> decide
  cases call with
  | openRing =>
      show c.state.rank ≤ c.openRing.2.state.rank
      rcases c.openRing_cases with ⟨-, hstate, heq⟩ | ⟨-, -, heq⟩ | ⟨r, -, heq⟩
      · rw [hstate]
        exact Nat.zero_le _
      · rw [heq]
        exact le_rfl
      · rw [heq]
  | attach cancelled =>
      show c.state.rank ≤ (c.attach cancelled).2.state.rank
      rcases c.attach_cases cancelled with ⟨-, hstate, heq⟩ | ⟨-, -, heq⟩ | ⟨r, -, heq⟩
      · rw [heq, hstate]
        show ChannelState.attaching.rank ≤ ChannelState.steady.rank
        decide
      · rw [heq]
      · rw [heq]
  | awaitAttached cancelled => exact (congrArg _ (c.ready_awaitAttached cancelled).2).ge
  | tryWrite samples => exact (congrArg _ (c.sameStage_tryWrite samples).state).ge
  | tryRead out => exact (congrArg _ (c.sameStage_tryRead out).state).ge
  | close => exact hlast
  | dropWriter => exact hlast
  | dropReader => exact hlast

/-- Only the reader makes a channel steady, and only when the writer has told it to. -/
theorem attach_of_becomes_steady {call : Call α} (hbefore : c.state ≠ .steady)
    (hafter : (c.call call).2.state = .steady) :
    c.ready = .raised ∧ ∃ cancelled, call = .attach cancelled := by
  cases call with
  | openRing =>
      rcases c.openRing_cases with ⟨-, -, heq⟩ | ⟨-, -, heq⟩ | ⟨r, -, heq⟩
      · simp [Channel.call, heq] at hafter
      · exact absurd (by simpa [Channel.call, heq, allocated] using hafter) hbefore
      · exact absurd (by simpa [Channel.call, heq] using hafter) hbefore
  | attach cancelled =>
      rcases c.attach_cases cancelled with ⟨hraised, -, heq⟩ | ⟨hraised, -, heq⟩ | ⟨r, -, heq⟩
      · exact ⟨hraised, cancelled, rfl⟩
      · exact ⟨hraised, cancelled, rfl⟩
      · exact absurd (by simpa [Channel.call, heq] using hafter) hbefore
  | awaitAttached cancelled =>
      exact absurd ((c.ready_awaitAttached cancelled).2.symm.trans hafter) hbefore
  | tryWrite samples =>
      exact absurd ((c.sameStage_tryWrite samples).state.symm.trans hafter) hbefore
  | tryRead out => exact absurd ((c.sameStage_tryRead out).state.symm.trans hafter) hbefore
  | close => cases hafter
  | dropWriter => cases hafter
  | dropReader => cases hafter

theorem isSent_of_openRing_ok (h : c.Met) (hok : c.openRing.1 = .ok ()) :
    c.openRing.2.ready.isSent = true := by
  unfold openRing at hok ⊢
  split
  · rename_i hidle
    rw [if_pos hidle] at hok
    dsimp only at hok ⊢
    split
    · rfl
    · rename_i hstate
      rw [if_neg hstate] at hok
      cases hok
  · rename_i hready
    rw [if_neg hready] at hok
    split
    · rename_i hclosed
      rw [if_pos hclosed] at hok
      cases hok
    · rename_i hclosed
      cases hsignal : c.ready with
      | idle => exact absurd hsignal hready
      | lost => exact absurd (by simpa [isClosed] using h.lost hsignal) hclosed
      | _ => rfl

/-- The writer raises its signal by opening the channel and in no other way. -/
theorem isSent_ready_call (h : c.Met) (call : Call α) : (c.call call).2.ready.isSent = true ↔
    c.ready.isSent = true ∨ call = .openRing ∧ c.openRing.1 = .ok () := by
  cases call with
  | openRing =>
      have hopened := isSent_of_openRing_ok h
      show c.openRing.2.ready.isSent = true ↔ _
      rcases c.openRing_cases with ⟨-, -, heq⟩ | ⟨hidle, -, heq⟩ | ⟨r, -, heq⟩
      · simp [heq, Signal.isSent]
      · simp [heq, hidle, Signal.isSent]
      · rw [heq] at hopened ⊢
        exact ⟨.inl, fun hsent => hsent.elim id fun hok => hopened hok.2⟩
  | attach cancelled =>
      show (c.attach cancelled).2.ready.isSent = true ↔ _
      rcases c.attach_cases cancelled with ⟨hraised, -, heq⟩ | ⟨hraised, -, heq⟩ | ⟨r, -, heq⟩
      · simp [heq, hraised, Signal.isSent]
      · simp [heq, hraised, Signal.isSent]
      · simp [heq]
  | awaitAttached cancelled => simp [Channel.call, c.ready_awaitAttached cancelled]
  | tryWrite samples => simp [Channel.call, (c.sameStage_tryWrite samples).ready]
  | tryRead out => simp [Channel.call, (c.sameStage_tryRead out).ready]
  | close => simp [Channel.call, close]
  | dropWriter => simp [Channel.call, dropWriter]
  | dropReader => simp [Channel.call, dropReader, close]

/-- The reader raises its signal by making the channel steady and in no other way. -/
theorem isSent_attached_call (c : Channel α) (call : Call α) :
    (c.call call).2.attached.isSent = true ↔
    c.attached.isSent = true ∨ c.state ≠ .steady ∧
      ∃ cancelled, call = .attach cancelled ∧ (c.attach cancelled).2.state = .steady := by
  cases call with
  | openRing => simp [Channel.call, c.attached_openRing]
  | attach cancelled =>
      by_cases hidle : c.attached = .idle
      · rcases c.attach_cases cancelled with ⟨-, hstate, heq⟩ | ⟨-, -, heq⟩ | ⟨r, -, heq⟩
        · simp [Channel.call, heq, hstate, Signal.isSent]
        · simp [Channel.call, heq, hidle, Signal.isSent]
        · simp [Channel.call, heq]
      · simp [Channel.call, (attach_of_attached_ne_idle hidle).1]
  | awaitAttached cancelled =>
      rcases c.attached_awaitAttached cancelled with ⟨hraised, heq⟩ | heq
      · simp [Channel.call, heq, hraised, Signal.isSent]
      · simp [Channel.call, heq]
  | tryWrite samples => simp [Channel.call, (c.sameStage_tryWrite samples).attached]
  | tryRead out => simp [Channel.call, (c.sameStage_tryRead out).attached]
  | close => simp [Channel.call, close]
  | dropWriter => simp [Channel.call, dropWriter, close]
  | dropReader => simp [Channel.call, dropReader, close]

/-- The signal of the reader is lost when the reader lets go of its end, or is turned away after the
writer has raised its own. -/
theorem attached_call_eq_lost (c : Channel α) {call : Call α}
    (hlost : (c.call call).2.attached = .lost) :
    c.attached = .lost ∨ call = .dropReader ∨
      c.ready = .raised ∧ ∃ cancelled, call = .attach cancelled ∧
        (c.attach cancelled).1 = some (.error .closed) := by
  cases call with
  | openRing => exact .inl (c.attached_openRing.symm.trans hlost)
  | attach cancelled =>
      rcases c.attach_cases cancelled with ⟨-, -, heq⟩ | ⟨hraised, -, heq⟩ | ⟨r, -, heq⟩
      · simp [Channel.call, heq] at hlost
      · exact .inr (.inr ⟨hraised, cancelled, rfl, by rw [heq]⟩)
      · exact .inl (by simpa [Channel.call, heq] using hlost)
  | awaitAttached cancelled =>
      rcases c.attached_awaitAttached cancelled with ⟨-, heq⟩ | heq
      · cases heq.symm.trans hlost
      · exact .inl (heq.symm.trans hlost)
  | tryWrite samples => exact .inl ((c.sameStage_tryWrite samples).attached.symm.trans hlost)
  | tryRead out => exact .inl ((c.sameStage_tryRead out).attached.symm.trans hlost)
  | close => exact .inl hlost
  | dropWriter => exact .inl hlost
  | dropReader => exact .inr (.inl rfl)

/-- A signal that is lost stays lost. -/
theorem attached_call_of_lost (hlost : c.attached = .lost) (call : Call α) :
    (c.call call).2.attached = .lost := by
  cases call with
  | openRing => exact c.attached_openRing.trans hlost
  | attach cancelled =>
      have hspent : c.attached ≠ .idle := by simp [hlost]
      exact (congrArg _ (attach_of_attached_ne_idle hspent).1).trans hlost
  | awaitAttached cancelled =>
      rcases c.attached_awaitAttached cancelled with ⟨hraised, -⟩ | heq
      · cases hraised.symm.trans hlost
      · exact heq.trans hlost
  | tryWrite samples => exact (c.sameStage_tryWrite samples).attached.trans hlost
  | tryRead out => exact (c.sameStage_tryRead out).attached.trans hlost
  | close => exact hlost
  | dropWriter => exact hlost
  | dropReader => exact congrArg Signal.abandon hlost

omit [Inhabited α] in
/-- A reader that is turned away from a channel that was opened loses its signal. -/
theorem lost_of_attach_closed (h : c.Met) (hsent : c.ready.isSent = true)
    (hclosed : (c.attach cancelled).1 = some (.error .closed)) :
    (c.attach cancelled).2.attached = .lost := by
  rcases c.attach_cases cancelled with ⟨-, -, heq⟩ | ⟨-, -, heq⟩ | ⟨r, htold, heq⟩
  · rw [heq] at hclosed
    cases hclosed
  · rw [heq]
  · rw [heq] at hclosed
    rcases htold hclosed with hlost | ⟨hreceived, hidle⟩
    · rw [hlost] at hsent
      cases hsent
    · exact absurd hidle (h.received hreceived)

omit [Inhabited α] in
/-- In a steady channel the reader has raised its signal. -/
theorem Met.isSent_of_steady (h : c.Met) (hsteady : c.state = .steady) :
    c.attached.isSent = true := by
  have hreceived : c.ready = .received := by
    cases hready : c.ready with
    | received => rfl
    | idle => simpa [hsteady] using h.idle hready
    | raised => simpa [hsteady] using h.raised hready
    | lost => simpa [hsteady] using h.lost hready
  cases hattached : c.attached with
  | idle => exact absurd hattached (h.received hreceived)
  | lost => simpa [hsteady] using h.gone hattached
  | _ => rfl

omit [Inhabited α] in
/-- A reader that is told that it has attached has done so, unless its signal was lost before. -/
theorem Met.attach_ok_imp_iff (h : c.Met) (cancelled : Bool) :
    ((c.attach cancelled).1 = some (.ok ()) → (c.attach cancelled).2.attached.isSent = true) ↔
      c.attached ≠ .lost := by
  constructor
  · intro htrue hlost
    have hspent : c.attached ≠ .idle := by simp [hlost]
    obtain ⟨hsame, -, hok⟩ : (c.attach cancelled).2 = c ∧ _ := attach_of_attached_ne_idle hspent
    have hsent := htrue (hok (.inr (h.gone hlost)))
    rw [hsame, hlost] at hsent
    cases hsent
  · intro hlost hok
    by_cases hidle : c.attached = .idle
    · exact (h.attach cancelled).isSent_of_steady (of_attach_ok hidle hok).2
    · rw [(attach_of_attached_ne_idle hidle).1]
      cases hattached : c.attached with
      | idle => exact absurd hattached hidle
      | lost => exact absurd hattached hlost
      | _ => rfl

end Steps

section Runs

variable {α : Type} [Inhabited α] {c : Channel α} {name : String} {capacity block : Nat}
  {calls : List (Call α)}

theorem rank_after_le (c : Channel α) (calls : List (Call α)) :
    c.state.rank ≤ (c.after calls).state.rank := by
  induction calls generalizing c with
  | nil => exact le_rfl
  | cons call rest ih => exact (c.rank_call_le call).trans (ih _)

theorem block_after (c : Channel α) (calls : List (Call α)) : (c.after calls).block = c.block := by
  induction calls generalizing c with
  | nil => rfl
  | cons call rest ih => exact (ih _).trans (c.course_call call).block

theorem Recalls.concat (h : c.Recalls calls) (call : Call α) : c.Recalls (calls ++ [call]) := by
  have hmet := h.kept.met
  refine ⟨?_, ?_, ?_, ?_, ?_⟩
  · rw [after_concat]
    exact h.kept.call call
  · rw [after_concat, isSent_ready_call hmet, h.opened]
    exact happened_concat.symm
  · rw [after_concat, isSent_attached_call, h.joined]
    exact happened_concat.symm
  · rw [after_concat]
    intro hturned
    rcases happened_concat.mp hturned with hbefore | ⟨hopened, cancelled, rfl, hclosed⟩
    · exact attached_call_of_lost (h.turned hbefore) call
    · exact lost_of_attach_closed hmet (h.opened.mpr hopened) hclosed
  · rw [after_concat]
    intro hlost
    rcases attached_call_eq_lost _ hlost with hbefore | rfl | ⟨hraised, hclosed⟩
    · rcases h.lost hbefore with hdropped | hturned
      · exact .inl (List.mem_append_left _ hdropped)
      · exact .inr (hturned.append _)
    · exact .inl (List.mem_append_right _ (List.mem_singleton_self _))
    · have hopened : c.Opened calls := h.opened.mp (Signal.isSent_iff.mpr (.inl hraised))
      exact .inr (happened_concat.mpr (.inr ⟨hopened, hclosed⟩))

/-- The signals are a true memory, whatever calls are made. -/
theorem recalls_of_create (hc : create name capacity block = .ok c) (calls : List (Call α)) :
    c.Recalls calls := by
  obtain ⟨hkept, -, hready, hattached, -, -⟩ := kept_of_create hc
  induction calls using List.reverseRecOn with
  | nil =>
      refine ⟨hkept, ?_, ?_, fun h => absurd h not_happened_nil, ?_⟩
      · exact iff_of_false (by simp [after, hready, Signal.isSent]) not_happened_nil
      · exact iff_of_false (by simp [after, hattached, Signal.isSent]) not_happened_nil
      · intro hlost
        cases hattached.symm.trans hlost
  | append_singleton calls call ih => exact ih.concat call

/-- A channel has been steady exactly if the reader has attached. -/
theorem wasSteady_iff_joined (hc : create name capacity block = .ok c) (calls : List (Call α)) :
    c.WasSteady calls ↔ c.Joined calls := by
  constructor
  · rintro ⟨before, ⟨rest, rfl⟩, hsteady⟩
    have h := recalls_of_create hc before
    exact (h.joined.mp (h.kept.met.isSent_of_steady hsteady)).append rest
  · rintro ⟨before, call, rest, rfl, -, cancelled, rfl, hsteady⟩
    refine ⟨before ++ [.attach cancelled], ⟨rest, by simp⟩, ?_⟩
    rw [after_concat]
    exact hsteady

omit [Inhabited α] in
/-- The ring is there as long as the channel is open to transfers or holds samples. -/
theorem Kept.ring_ne_none (h : c.Kept)
    (hneeded : c.state = .attaching ∨ c.state = .steady ∨ 0 < c.available) : c.ring ≠ none := by
  rcases hneeded with hstate | hstate | hheld
  · exact h.ring_of_open (.inl hstate)
  · exact h.ring_of_open (.inr hstate)
  · intro hnone
    rw [h.sound.empty hnone] at hheld
    exact absurd hheld (lt_irrefl 0)

/-- Once a channel was steady, its two sides are there for every transfer. -/
theorem Kept.transfer_ne_notAttached (h : c.Kept) (hstage : ChannelState.steady.rank ≤ c.state.rank)
    (samples : List α) (hlength : samples.length = c.block) :
    (c.tryWrite samples).1 ≠ .error .notAttached ∧ (c.tryRead samples).1 ≠ .error .notAttached := by
  have hring : c.available ≠ 0 ∨ c.state = .steady → ∃ ring, c.ring = some ring := by
    intro hneeded
    refine Option.ne_none_iff_exists'.mp (h.ring_ne_none ?_)
    rcases hneeded with hheld | hstate
    · exact .inr (.inr (Nat.pos_of_ne_zero hheld))
    · exact .inr (.inl hstate)
  have hfull : c.block ≤ c.available → c.available ≠ 0 := by
    have := h.sound.block_pos
    omega
  constructor
  · unfold tryWrite
    rw [if_neg (not_not_intro hlength)]
    cases hstate : c.state with
    | uninitialized => simp [hstate, ChannelState.rank] at hstage
    | attaching => simp [hstate, ChannelState.rank] at hstage
    | closed => simp
    | steady =>
        obtain ⟨ring, hsome⟩ := hring (.inr hstate)
        simp only [hsome]
        split <;> simp
  · unfold tryRead
    rw [if_neg (not_not_intro hlength)]
    split
    · cases hstate : c.state with
      | uninitialized => simp [hstate, ChannelState.rank] at hstage
      | attaching => simp [hstate, ChannelState.rank] at hstage
      | closed => simp
      | steady => simp
    · rename_i hlong
      obtain ⟨ring, hsome⟩ := hring (.inl (hfull (Nat.le_of_not_lt hlong)))
      simp [hsome]

end Runs

end Channel

section Waits

variable {α β : Type} {f : Channel α → Except ChannelError (Option β) × Channel α} {s : Scene α}

theorem Scene.await_of_over (hover : Over f s) (moves : List (Scene α → Scene α)) :
    s.await f moves = s.await f [] := by
  refine pollUntil_of_over ?_ moves
  exact hover

theorem Scene.await_of_not_over (hkeeps : ∀ c, (f c).1 = .ok none → (f c).2 = c)
    (hover : ¬ Over f s) (move : Scene α → Scene α) (rest : List (Scene α → Scene α)) :
    s.await f (move :: rest) = (move s).await f rest := by
  obtain ⟨hawake, hnone⟩ := not_or.mp hover
  have hlook : f s.channel = (.ok none, s.channel) :=
    Prod.ext (not_not.mp hnone) (hkeeps _ (not_not.mp hnone))
  refine pollUntil_cons (Bool.eq_false_of_not_eq_true hawake) ?_ move rest
  rw [Scene.attempt, hlook]

variable [Inhabited α] {asides : List (Aside α)}
  {seek : Channel α → Except ChannelError (Option Unit) × Channel α}

/-- A wait ends like a look at the channel, after the calls that the others have made up to then. -/
theorem exists_look (Waits : Channel α → Prop) (hseek : ∀ c, (seek c).1 = .ok none → (seek c).2 = c)
    (hkeep : ∀ c made, .call made ∈ asides → Waits c → Waits (c.call made).2)
    (hs : Waits s.channel) :
    ∃ (calls : List (Call α)) (cancelled : Bool), calls <+: asides.filterMap Aside.made? ∧
      Waits (s.channel.after calls) ∧
      ((Scene.await seek [] ⟨s.channel.after calls, cancelled⟩).1,
          (Scene.await seek [] ⟨s.channel.after calls, cancelled⟩).2.channel) =
        ((s.await seek (asides.map Aside.move)).1,
          (s.await seek (asides.map Aside.move)).2.channel) := by
  induction asides generalizing s with
  | nil => exact ⟨[], s.cancelled, List.prefix_refl _, hs, rfl⟩
  | cons aside rest ih =>
      by_cases hover : Scene.Over seek s
      · exact ⟨[], s.cancelled, List.nil_prefix, hs, by rw [Scene.await_of_over hover]; rfl⟩
      · have hrest : ∀ c made, .call made ∈ rest → Waits c → Waits (c.call made).2 :=
          fun c made hmade => hkeep c made (List.mem_cons_of_mem _ hmade)
        rw [List.map_cons, Scene.await_of_not_over hseek hover]
        cases aside with
        | cancel => exact ih hrest (s := Aside.cancel.move s) hs
        | call made =>
            obtain ⟨calls, cancelled, hcalls, hlast⟩ :=
              ih hrest (s := (Aside.call made).move s) (hkeep _ made List.mem_cons_self hs)
            exact ⟨made :: calls, cancelled, List.cons_prefix_cons.mpr ⟨rfl, hcalls⟩, hlast⟩

namespace Channel

omit [Inhabited α] in
theorem seekReady_waits (c : Channel α) (h : c.seekReady.1 = .ok none) : c.seekReady.2 = c := by
  unfold seekReady at h ⊢
  cases hready : c.ready with
  | raised => by_cases hstate : c.state = .attaching <;> simp [hready, hstate] at h
  | _ => rfl

omit [Inhabited α] in
theorem seekAttached_waits (c : Channel α) (h : c.seekAttached.1 = .ok none) :
    c.seekAttached.2 = c := by
  unfold seekAttached at h ⊢
  cases hattached : c.attached with
  | raised => simp [hattached] at h
  | _ => rfl

/-- The reader does not hear its own signal, nor does it take back that of the writer. -/
theorem waits_call {c : Channel α} (h : c.attached ≠ .received ∧ c.ready ≠ .idle) {call : Call α}
    (hcall : call.ofReader = true) :
    (c.call call).2.attached ≠ .received ∧ (c.call call).2.ready ≠ .idle := by
  cases call with
  | attach cancelled =>
      rcases c.attach_cases cancelled with ⟨-, -, heq⟩ | ⟨-, -, heq⟩ | ⟨r, -, heq⟩
      · simp [Channel.call, heq]
      · simp [Channel.call, heq]
      · simpa [Channel.call, heq] using h
  | tryRead out =>
      have hsame := c.sameStage_tryRead out
      exact ⟨hsame.attached ▸ h.1, hsame.ready ▸ h.2⟩
  | close => exact h
  | dropReader => exact ⟨fun hreceived => h.1 (Signal.abandon_eq_received.mp hreceived), h.2⟩
  | _ => cases hcall

/-- The wait of a reader ends like a look after the calls that the writer has made up to then. -/
theorem exists_attach_look (hwriter : ∀ made, .call made ∈ asides → made.ofWriter = true)
    (s : Scene α) :
    ∃ (calls : List (Call α)) (cancelled : Bool), calls <+: asides.filterMap Aside.made? ∧
      (s.channel.after calls).attach cancelled =
        ((attachAmong (asides.map Aside.move) s).1,
          (attachAmong (asides.map Aside.move) s).2.channel) := by
  unfold attachAmong
  split
  · rename_i hidle
    obtain ⟨calls, cancelled, hcalls, hlast, hend⟩ :=
      exists_look (·.attached = .idle) seekReady_waits
        (fun c made hmade hwaits => attached_call hwaits (hwriter made hmade)) hidle
    refine ⟨calls, cancelled, hcalls, ?_⟩
    rw [← hend, attach, attachAmong, if_pos hlast]
  · rename_i hidle
    refine ⟨[], s.cancelled, List.nil_prefix, ?_⟩
    show attach s.cancelled s.channel = _
    rw [attach, attachAmong, if_neg hidle]

/-- The wait of a writer ends like a look after the calls that the reader has made up to then. -/
theorem exists_awaitAttached_look (hreader : ∀ made, .call made ∈ asides → made.ofReader = true)
    (s : Scene α) :
    ∃ (calls : List (Call α)) (cancelled : Bool), calls <+: asides.filterMap Aside.made? ∧
      (s.channel.after calls).awaitAttached cancelled =
        ((awaitAttachedAmong (asides.map Aside.move) s).1,
          (awaitAttachedAmong (asides.map Aside.move) s).2.channel) := by
  by_cases hwaits : s.channel.attached ≠ .received ∧ s.channel.ready ≠ .idle
  · obtain ⟨calls, cancelled, hcalls, hlast, hend⟩ :=
      exists_look (fun c => c.attached ≠ .received ∧ c.ready ≠ .idle) seekAttached_waits
        (fun c made hmade hwaits => waits_call hwaits (hreader made hmade)) hwaits
    refine ⟨calls, cancelled, hcalls, ?_⟩
    rw [awaitAttachedAmong, if_neg hwaits.1, if_neg hwaits.2, ← hend, awaitAttached,
      awaitAttachedAmong, if_neg hlast.1, if_neg hlast.2]
  · refine ⟨[], s.cancelled, List.nil_prefix, ?_⟩
    show awaitAttached s.cancelled s.channel = _
    rw [awaitAttached, awaitAttachedAmong, awaitAttachedAmong]
    by_cases hreceived : s.channel.attached = .received
    · rw [if_pos hreceived, if_pos hreceived]
    · have hidle : s.channel.ready = .idle := by
        by_contra hready
        exact hwaits ⟨hreceived, hready⟩
      rw [if_neg hreceived, if_pos hidle, if_neg hreceived, if_pos hidle]

end Channel

end Waits

namespace Channel

section Life

variable {α : Type} [Inhabited α]

/-- Whatever calls are made on a channel, its stage only moves forward.  It becomes steady only
by the reader, after the writer has opened it.  The ring is there whenever it is needed, and so
no transfer of a block misses the other side once the channel was steady.  The writer meets only
a reader that has attached.  A call that waits while the other side makes calls is a look after
some of these. -/
theorem channel_stages {capacity block : Nat} (name : String) (hblock : 1 ≤ block)
    (hcapacity : block ≤ capacity) :
    ∃ c : Channel α, create name capacity block = .ok c ∧ c.state = .uninitialized ∧ ∀ calls,
      (∀ more, (c.after calls).state.rank ≤ (c.after (calls ++ more)).state.rank) ∧
      (∀ call, (c.after calls).state ≠ .steady → (c.after (calls ++ [call])).state = .steady →
        c.Opened calls ∧ ∃ cancelled, call = .attach cancelled) ∧
      ((c.after calls).state = .attaching ∨ (c.after calls).state = .steady ∨
        0 < (c.after calls).available →
        (c.after calls).ring ≠ none) ∧
      (c.WasSteady calls → ∀ samples, samples.length = block →
        ((c.after calls).tryWrite samples).1 ≠ .error .notAttached ∧
        ((c.after calls).tryRead samples).1 ≠ .error .notAttached) ∧
      (∀ cancelled, ((c.after calls).awaitAttached cancelled).1 = some (.ok ()) → c.Joined calls) ∧
      (∀ (asides : List (Aside α)) cancelled, (∀ made, .call made ∈ asides → made.ofWriter = true) →
        ∃ meanwhile last, meanwhile <+: asides.filterMap Aside.made? ∧
          (c.after (calls ++ meanwhile)).attach last =
            ((attachAmong (asides.map Aside.move) ⟨c.after calls, cancelled⟩).1,
              (attachAmong (asides.map Aside.move) ⟨c.after calls, cancelled⟩).2.channel)) ∧
      (∀ (asides : List (Aside α)) cancelled, (∀ made, .call made ∈ asides → made.ofReader = true) →
        ∃ meanwhile last, meanwhile <+: asides.filterMap Aside.made? ∧
          (c.after (calls ++ meanwhile)).awaitAttached last =
            ((awaitAttachedAmong (asides.map Aside.move) ⟨c.after calls, cancelled⟩).1,
              (awaitAttachedAmong (asides.map Aside.move)
                ⟨c.after calls, cancelled⟩).2.channel)) := by
  have hvalid : ¬(block = 0 ∨ capacity < block) := by omega
  refine ⟨{ name, capacity, block }, if_neg hvalid, rfl, fun calls => ?_⟩
  set c : Channel α := { name, capacity, block } with hc
  have h : c.Recalls calls := recalls_of_create (if_neg hvalid) calls
  refine ⟨?_, ?_, h.kept.ring_ne_none, ?_, ?_, ?_, ?_⟩
  · intro more
    rw [after_append]
    exact rank_after_le _ more
  · intro call hbefore hafter
    rw [after_concat] at hafter
    obtain ⟨hraised, hattach⟩ := attach_of_becomes_steady hbefore hafter
    exact ⟨h.opened.mp (Signal.isSent_iff.mpr (.inl hraised)), hattach⟩
  · rintro ⟨before, ⟨rest, rfl⟩, hsteady⟩ samples hlength
    have hstage := rank_after_le (c.after before) rest
    rw [hsteady, ← after_append] at hstage
    exact h.kept.transfer_ne_notAttached hstage samples (hlength.trans (c.block_after _).symm)
  · intro cancelled hok
    exact h.joined.mp (isSent_of_awaitAttached_ok hok)
  · intro asides cancelled hwriter
    obtain ⟨meanwhile, last, hcalls, hlast⟩ := exists_attach_look hwriter ⟨c.after calls, cancelled⟩
    exact ⟨meanwhile, last, hcalls, by rw [after_append, hlast]⟩
  · intro asides cancelled hreader
    obtain ⟨meanwhile, last, hcalls, hlast⟩ :=
      exists_awaitAttached_look hreader ⟨c.after calls, cancelled⟩
    exact ⟨meanwhile, last, hcalls, by rw [after_append, hlast]⟩

/-- The two sides of a channel meet after the first wait of each was called off.  From then on no
transfer misses the other side, not even after the reader has let go of its end. -/
theorem channel_stages_retried :
    1 ≤ 2 ∧ 2 ≤ 4 ∧ ∃ c : Channel Nat, create "meet" 4 2 = .ok c ∧
      let calls : List (Call Nat) :=
        [.attach false, .openRing, .attach true, .awaitAttached true, .attach false]
      (c.after calls).state = .steady ∧
      ((c.after (calls ++ [.dropReader])).awaitAttached false).1 = some (.ok ()) ∧
      c.Joined (calls ++ [.dropReader]) ∧
      ((c.after (calls ++ [.dropReader])).tryWrite [1, 2]).1 ≠ .error .notAttached := by
  obtain ⟨c, hc, -, hall⟩ :=
    channel_stages (α := Nat) "meet" (by decide : 1 ≤ 2) (by decide : 2 ≤ 4)
  have hnew : { name := "meet", capacity := 4, block := 2 } = c := Except.ok.inj hc
  subst hnew
  have hok : ((after ({ name := "meet", capacity := 4, block := 2 } : Channel Nat)
      [.attach false, .openRing, .attach true, .awaitAttached true, .attach false,
        .dropReader]).awaitAttached
        false).1 = some (.ok ()) := by
    decide
  obtain ⟨-, -, -, htransfer, hjoined, -, -⟩ := hall
    [.attach false, .openRing, .attach true, .awaitAttached true, .attach false, .dropReader]
  have hsteady : (after ({ name := "meet", capacity := 4, block := 2 } : Channel Nat)
      [.attach false, .openRing, .attach true, .awaitAttached true, .attach false]).state =
        .steady := by
    decide
  exact ⟨by decide, by decide, _, hc, hsteady, hok, hjoined false hok,
    (htransfer ⟨_, ⟨[.dropReader], rfl⟩, hsteady⟩ [1, 2] rfl).1⟩

/-- As long as a reader holds its end, it can trust being told that it has attached exactly if it
was never turned away from the channel after the writer had opened it: the first such attempt spends
the signal of the reader, and the next one only finds a channel that is closed. -/
theorem attach_ok_imp_wasSteady_iff {name : String} {capacity block : Nat} {c : Channel α}
    (hc : create name capacity block = .ok c) {calls : List (Call α)} (hheld : .dropReader ∉ calls)
    (cancelled : Bool) :
    (((c.after calls).attach cancelled).1 = some (.ok ()) →
      c.WasSteady (calls ++ [.attach cancelled])) ↔
      ¬ c.TurnedAway calls := by
  have h := recalls_of_create hc calls
  have hnext := (recalls_of_create hc (calls ++ [.attach cancelled])).joined
  have hturned : c.TurnedAway calls ↔ (c.after calls).attached = .lost :=
    ⟨h.turned, fun hlost => (h.lost hlost).resolve_left hheld⟩
  rw [wasSteady_iff_joined hc, ← hnext, after_concat, hturned]
  exact h.kept.met.attach_ok_imp_iff cancelled

/-- A reader that comes before the writer and attaches in time. -/
theorem attach_ok_imp_wasSteady_iff_early :
    ∃ c : Channel Nat, create "early" 4 2 = .ok c ∧
      let calls : List (Call Nat) := [.attach false, .attach true, .openRing]
      .dropReader ∉ calls ∧ ((c.after calls).attach false).1 = some (.ok ()) ∧
        ¬ c.TurnedAway calls := by
  have hheld :
      .dropReader ∉ ([.attach false, .attach true, .openRing] : List (Call Nat)) := by decide
  have hnew : create "early" 4 2 =
      .ok ({ name := "early", capacity := 4, block := 2 } : Channel Nat) := rfl
  refine ⟨_, hnew, hheld, by decide, (attach_ok_imp_wasSteady_iff hnew hheld false).mp fun _ => ?_⟩
  exact ⟨_, List.prefix_refl _, by decide⟩

/-- The writer opens a channel and closes it.  The reader is turned away, tries again and is told
that it has attached, though the channel was never steady. -/
theorem attach_ok_without_meeting :
    ∃ c : Channel Nat, create "gone" 4 2 = .ok c ∧
      let calls : List (Call Nat) := [.openRing, .close, .attach false]
      ((c.after calls).attach false).1 = some (.ok ()) ∧
        ¬ c.WasSteady (calls ++ [.attach false]) := by
  have hnew :
      create "gone" 4 2 = .ok ({ name := "gone", capacity := 4, block := 2 } : Channel Nat) := rfl
  refine ⟨_, hnew, by decide, fun hsteady => ?_⟩
  have hjoined := (wasSteady_iff_joined hnew _).mp hsteady
  have hsent := (recalls_of_create hnew _).joined.mpr hjoined
  exact absurd hsent (by decide)

end Life

end Channel

end Dataflow

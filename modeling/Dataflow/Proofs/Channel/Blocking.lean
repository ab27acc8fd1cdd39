import Dataflow.Proofs.Channel.Stages

/-!
# Transfers that wait

A transfer that waits tries again and again, and between two attempts the others make calls on the
channel and may call the wait off.  However long it waits, it moves one block or none.

**Rounds.**  What the others do between two attempts is a round.  An attempt looks first whether the
wait was called off and then at the channel.  A call that is made in between counts for the round
before, and a wait that is called off in between for the round after: neither look sees what the
other is about.  `Scene.passed` is a scene after what the others have done, as if nobody had waited.
A wait lasts for the rounds up to the first scene in which it is over (`Scene.Lasts`), and ends
there like a single attempt (`exists_lasts`).

**Endings.**  `ReadEnds` and `WriteEnds` list how a transfer can end in a given scene: with one
block moved, or with the scene as the others have left it.

**Results.**
* `readBlocking_look`, `writeBlocking_look`: a single attempt on a channel that was steady.
* `transfers_atomic`: every transfer that waits, among anything that the others do.
-/

namespace Dataflow

section Defs

variable {α : Type} [Inhabited α]

namespace Scene

/-- A scene after what the others do. -/
def passed (s : Scene α) (asides : List (Aside α)) : Scene α :=
  asides.foldl (fun s aside => aside.move s) s

/-- Rounds of the others, each between two attempts, as moves. -/
def movesOf (rounds : List (List (Aside α))) : List (Scene α → Scene α) :=
  rounds.map fun round s => s.passed round

/-- A wait lasts for the rounds `made`: it is over after them and not before, or goes on when there
are no more rounds. -/
structure Lasts (stops : Scene α → Prop) (s : Scene α) (rounds made : List (List (Aside α))) :
    Prop where
  first : made <+: rounds
  before : ∀ earlier, earlier <+: made → earlier ≠ made → ¬ stops (s.passed earlier.flatten)
  last : stops (s.passed made.flatten) ∨ made = rounds

/-- A read has no more reason to wait. -/
def ReadOver (out : List α) (t : Scene α) : Prop :=
  t.cancelled = true ∨ out.length ≠ t.channel.block ∨ t.channel.block ≤ t.channel.available ∨
    t.channel.state = .closed

/-- A write has no more reason to wait. -/
def WriteOver (samples : List α) (t : Scene α) : Prop :=
  t.cancelled = true ∨ samples.length ≠ t.channel.block ∨
    t.channel.block ≤ t.channel.capacity - t.channel.available ∨ t.channel.state = .closed

end Scene

/-- How a read into the buffer `out` ends in the scene `t`, to which the others alone have led.  All
that was written and read up to then is in `h`. -/
inductive ReadEnds (t : Scene α) (h : History α) (out : List α) :
    Option (Except ChannelError Unit) × List α × Scene α → Prop
  /-- The next block is in the buffer, and is all that was taken from the channel. -/
  | read {block : List α} (awake : t.cancelled = false) (length : block.length = t.channel.block)
      (next : h.written = h.read ++ block ++ t.channel.popped.contents) :
      ReadEnds t h out (some (.ok ()), block, { t with channel := t.channel.popped })
  | calledOff (cancelled : t.cancelled = true) : ReadEnds t h out (some (.error .cancelled), out, t)
  /-- The channel is closed and everything was read. -/
  | drained (awake : t.cancelled = false) (closed : t.channel.state = .closed)
      (short : t.channel.available < t.channel.block) (all : h.read = h.written) :
      ReadEnds t h out (some (.error .closed), out, t)
  | misfit (awake : t.cancelled = false) (length : out.length ≠ t.channel.block) :
      ReadEnds t h out (some (.error (.blockSize t.channel.block out.length)), out, t)
  /-- The wait goes on. -/
  | waiting (awake : t.cancelled = false) (steady : t.channel.state = .steady)
      (short : t.channel.available < t.channel.block) : ReadEnds t h out (none, out, t)

/-- How a write of `samples` ends in the scene `t`, to which the others alone have led.  All that
was written and read up to then is in `h`. -/
inductive WriteEnds (t : Scene α) (h : History α) (samples : List α) :
    Option (Except ChannelError Unit) × Scene α → Prop
  /-- The samples stand behind all that was on its way. -/
  | wrote (awake : t.cancelled = false) (length : samples.length = t.channel.block)
      (next : h.written ++ samples = h.read ++ (t.channel.put samples).contents) :
      WriteEnds t h samples (some (.ok ()), { t with channel := t.channel.put samples })
  | calledOff (cancelled : t.cancelled = true) : WriteEnds t h samples (some (.error .cancelled), t)
  | refused (awake : t.cancelled = false) (closed : t.channel.state = .closed) :
      WriteEnds t h samples (some (.error .closed), t)
  | misfit (awake : t.cancelled = false) (length : samples.length ≠ t.channel.block) :
      WriteEnds t h samples (some (.error (.blockSize t.channel.block samples.length)), t)
  /-- The wait goes on. -/
  | waiting (awake : t.cancelled = false) (steady : t.channel.state = .steady)
      (full : t.channel.capacity - t.channel.available < t.channel.block) :
      WriteEnds t h samples (none, t)

end Defs

namespace Scene

section Rounds

variable {α : Type} [Inhabited α] {s : Scene α}

theorem channel_passed (s : Scene α) (asides : List (Aside α)) :
    (s.passed asides).channel = s.channel.after (asides.filterMap Aside.made?) := by
  induction asides generalizing s with
  | nil => rfl
  | cons aside rest ih => cases aside <;> exact ih _

theorem passed_append (s : Scene α) (asides more : List (Aside α)) :
    s.passed (asides ++ more) = (s.passed asides).passed more := List.foldl_append

variable {stops stops' : Scene α → Prop} {rounds made : List (List (Aside α))}
  {round : List (Aside α)}

theorem lasts_nil (h : stops s ∨ rounds = []) : Lasts stops s rounds [] := by
  refine ⟨List.nil_prefix, ?_, h.imp_right Eq.symm⟩
  intro earlier hprefix hne
  exact absurd (List.prefix_nil.mp hprefix) hne

/-- A wait that is not over lasts for one more round. -/
theorem Lasts.cons (hover : ¬ stops s) (h : Lasts stops (s.passed round) rounds made) :
    Lasts stops s (round :: rounds) (round :: made) := by
  refine ⟨List.cons_prefix_cons.mpr ⟨rfl, h.first⟩, ?_, ?_⟩
  · intro earlier hprefix hne
    cases earlier with
    | nil => exact hover
    | cons first earlier =>
        obtain ⟨rfl, hearlier⟩ := List.cons_prefix_cons.mp hprefix
        have hrest := h.before earlier hearlier fun heq => hne (by rw [heq])
        rwa [← passed_append] at hrest
  · refine h.last.imp ?_ fun heq => by rw [heq]
    intro hlast
    rwa [← passed_append] at hlast

theorem Lasts.congr (h : Lasts stops s rounds made)
    (hiff : ∀ asides, stops (s.passed asides) ↔ stops' (s.passed asides)) :
    Lasts stops' s rounds made :=
  ⟨h.first, fun earlier hprefix hne => mt (hiff _).mpr (h.before earlier hprefix hne),
    h.last.imp_left (hiff _).mp⟩

end Rounds

section Waits

variable {α β : Type}

section Buffers

variable {f : List α → Channel α → Except ChannelError (Option β) × List α × Channel α}
  {out : List α} {s : Scene α}

theorem awaitInto_of_over (hover : Over (f out) s) (moves : List (Scene α → Scene α)) :
    s.awaitInto f moves out = s.awaitInto f [] out := by
  refine pollUntil_of_over ?_ _
  exact hover

theorem awaitInto_of_not_over (hkeeps : ∀ c, (f out c).1 = .ok none → (f out c).2 = (out, c))
    (hover : ¬ Over (f out) s) (move : Scene α → Scene α) (rest : List (Scene α → Scene α)) :
    s.awaitInto f (move :: rest) out = (move s).awaitInto f rest out := by
  obtain ⟨hawake, hnone⟩ := not_or.mp hover
  have hlook : f out s.channel = (.ok none, out, s.channel) :=
    Prod.ext (not_not.mp hnone) (hkeeps _ (not_not.mp hnone))
  refine pollUntil_cons ?_ ?_ _ _
  · exact Bool.eq_false_of_not_eq_true hawake
  · rw [attemptInto, hlook]

end Buffers

/-- A wait that looks at nothing later once it is over, and goes on as if it had not looked before
that, ends as it would if it began after the rounds for which it lasts. -/
theorem exists_lasts [Inhabited α] {stops : Scene α → Prop}
    (wait : List (Scene α → Scene α) → Scene α → β)
    (hover : ∀ {s}, stops s → ∀ moves, wait moves s = wait [] s)
    (hmore : ∀ {s}, ¬ stops s → ∀ move rest, wait (move :: rest) s = wait rest (move s))
    (rounds : List (List (Aside α))) (s : Scene α) :
    ∃ made, Lasts stops s rounds made ∧
      wait (movesOf rounds) s = wait [] (s.passed made.flatten) := by
  induction rounds generalizing s with
  | nil => exact ⟨[], lasts_nil (.inr rfl), rfl⟩
  | cons round rest ih =>
      by_cases hstops : stops s
      · exact ⟨[], lasts_nil (.inl hstops), hover hstops _⟩
      · obtain ⟨made, hlasts, hend⟩ := ih (s.passed round)
        refine ⟨round :: made, hlasts.cons hstops, ?_⟩
        rw [movesOf, List.map_cons, hmore hstops, List.flatten_cons, passed_append]
        exact hend

end Waits

end Scene

namespace Channel

section Attached

variable {α : Type} [Inhabited α] {c : Channel α} {name : String} {capacity block : Nat}
  {calls : List (Call α)}

theorem Live.after (h : c.Live) (calls : List (Call α)) : (c.after calls).Live := by
  induction calls generalizing c with
  | nil => exact h
  | cons call rest ih => exact ih (h.call call)

/-- A channel that was steady has its ring for good, and is steady still or closed. -/
theorem WasSteady.live (h : c.WasSteady calls) (hc : create name capacity block = .ok c) :
    (c.after calls).Live ∧ ((c.after calls).state = .steady ∨ (c.after calls).state = .closed) := by
  obtain ⟨before, ⟨rest, rfl⟩, hsteady⟩ := h
  have hkept := (recalls_of_create hc before).kept
  have hstage := rank_after_le (c.after before) rest
  rw [after_append]
  refine ⟨(hkept.live (hkept.ring_of_open (.inr hsteady))).after rest, ?_⟩
  rw [hsteady] at hstage
  cases hstate : ((c.after before).after rest).state <;> simp_all [ChannelState.rank]

theorem WasSteady.append (h : c.WasSteady calls) (more : List (Call α)) :
    c.WasSteady (calls ++ more) := by
  obtain ⟨before, hprefix, hsteady⟩ := h
  exact ⟨before, hprefix.trans (List.prefix_append _ _), hsteady⟩

end Attached

section Attempts

variable {α : Type}

theorem writeAttempt_keeps (samples : List α) (c : Channel α)
    (h : (c.writeAttempt samples).1 = .ok none) : (c.writeAttempt samples).2 = c := by
  unfold writeAttempt at h ⊢
  rcases c.tryWrite_cases samples with ⟨_, -, -, -, -, heq⟩ | ⟨r, -, -, heq⟩
  · simp [heq] at h
  · rw [heq]
    rcases r with e | t
    · rfl
    · cases t <;> rfl

variable [Inhabited α]

theorem readAttempt_keeps (out : List α) (c : Channel α) (h : (c.readAttempt out).1 = .ok none) :
    (c.readAttempt out).2 = (out, c) := by
  unfold readAttempt at h ⊢
  rcases c.tryRead_cases out with ⟨_, -, -, heq⟩ | ⟨r, -, -, heq⟩
  · simp [heq] at h
  · rw [heq]
    rcases r with e | t
    · rfl
    · cases t <;> rfl

end Attempts

section Looks

variable {α : Type} [Inhabited α] {t : Scene α} {h : History α} {capacity block : Nat}

/-- What a single attempt to read does on a channel that was steady, and when it tells something. -/
theorem readBlocking_look (hlive : t.channel.Live)
    (hstage : t.channel.state = .steady ∨ t.channel.state = .closed) (hv : h.Valid capacity block)
    (hsame : h.channel = t.channel) (out : List α) :
    ReadEnds t h out (readBlocking out [] t) ∧
      (Scene.Over (readAttempt out) t ↔ Scene.ReadOver out t) := by
  obtain ⟨c, cancelled⟩ := t
  dsimp only at hlive hstage hsame
  cases cancelled with
  | true =>
      refine ⟨?_, iff_of_true (.inl rfl) (.inl rfl)⟩
      unfold readBlocking Scene.awaitInto pollUntil
      exact .calledOff rfl
  | false =>
      simp only [Scene.Over, Scene.ReadOver, Bool.false_eq_true, false_or]
      unfold readBlocking Scene.awaitInto pollUntil Scene.attemptInto readAttempt
      by_cases hlength : out.length = c.block
      · by_cases hdata : c.block ≤ c.available
        · have hnext : h.written = h.read ++ c.contents.take c.block ++ c.popped.contents := by
            rw [hv.balance, hsame, hlive.contents_popped hdata, List.append_assoc,
              List.take_append_drop]
          have htaken : (c.contents.take c.block).length = c.block := by
            rw [List.length_take, hlive.sound.length_contents]
            exact Nat.min_eq_left hdata
          simp only [hlive.tryRead hdata hlength]
          exact ⟨.read rfl htaken hnext, by simp [hdata]⟩
        · have hshort : c.available < c.block := Nat.lt_of_not_le hdata
          rcases hstage with hsteady | hclosed
          · simp only [tryRead_of_lt hsteady hshort hlength]
            exact ⟨.waiting rfl hsteady hshort, by simp [hlength, hdata, hsteady]⟩
          · have htold : c.tryRead out = (.error .closed, out, c) := by
              simp [tryRead, hlength, hshort, hclosed]
            simp only [htold]
            exact ⟨.drained rfl hclosed hshort (hv.read_eq_written (hsame ▸ hshort)),
              by simp [hclosed]⟩
      · have htold : c.tryRead out = (.error (.blockSize c.block out.length), out, c) := by
          simp [tryRead, hlength]
        simp only [htold]
        exact ⟨.misfit rfl hlength, by simp [hlength]⟩

/-- What a single attempt to write does on a channel that was steady, and when it tells
something. -/
theorem writeBlocking_look (hlive : t.channel.Live)
    (hstage : t.channel.state = .steady ∨ t.channel.state = .closed) (hv : h.Valid capacity block)
    (hsame : h.channel = t.channel) (samples : List α) :
    WriteEnds t h samples (writeBlocking samples [] t) ∧
      (Scene.Over (writeAttempt samples) t ↔ Scene.WriteOver samples t) := by
  obtain ⟨c, cancelled⟩ := t
  dsimp only at hlive hstage hsame
  cases cancelled with
  | true =>
      refine ⟨?_, iff_of_true (.inl rfl) (.inl rfl)⟩
      unfold writeBlocking Scene.await pollUntil
      exact .calledOff rfl
  | false =>
      simp only [Scene.Over, Scene.WriteOver, Bool.false_eq_true, false_or]
      unfold writeBlocking Scene.await pollUntil Scene.attempt writeAttempt
      by_cases hlength : samples.length = c.block
      · rcases hstage with hsteady | hclosed
        · by_cases hroom : c.block ≤ c.capacity - c.available
          · have hfits : c.hasRoom = true := by
              simp [hasRoom, hsteady, hroom]
            have hnext : h.written ++ samples = h.read ++ (c.put samples).contents := by
              rw [hv.balance, hsame, hlive.contents_put hfits hlength, List.append_assoc]
            simp only [hlive.tryWrite hfits hlength]
            exact ⟨.wrote rfl hlength hnext, by simp [hroom]⟩
          · have hfull : c.capacity - c.available < c.block := Nat.lt_of_not_le hroom
            have htold : c.tryWrite samples = (.ok .wouldBlock, c) := by
              simp [tryWrite, hlength, hsteady, hfull]
            simp only [htold]
            exact ⟨.waiting rfl hsteady hfull, by simp [hlength, hroom, hsteady]⟩
        · have htold : c.tryWrite samples = (.error .closed, c) := by
            simp [tryWrite, hlength, hclosed]
          simp only [htold]
          exact ⟨.refused rfl hclosed, by simp [hclosed]⟩
      · have htold : c.tryWrite samples = (.error (.blockSize c.block samples.length), c) := by
          simp [tryWrite, hlength]
        simp only [htold]
        exact ⟨.misfit rfl hlength, by simp [hlength]⟩

end Looks

end Channel

namespace History

section Creation

variable {α : Type} [Inhabited α] {c : Channel α} {name : String} {capacity block : Nat}

theorem channel_run (h : History α) (calls : List (Call α)) :
    (h.run calls).channel = h.channel.after calls := by
  induction calls generalizing h with
  | nil => rfl
  | cons call rest ih => exact ih _

theorem valid_of_create (hc : Channel.create name capacity block = .ok c) :
    ({ channel := c } : History α).Valid capacity block := by
  have hvalid : ¬ (block = 0 ∨ capacity < block) := by
    intro hbad
    rw [Channel.create, if_pos hbad] at hc
    cases hc
  obtain ⟨c', hc', hv⟩ := exists_valid α name (Nat.pos_of_ne_zero fun h => hvalid (.inl h))
    (Nat.le_of_not_lt fun h => hvalid (.inr h))
  cases hc.symm.trans hc'
  exact hv

end Creation

end History

namespace Channel

section Atomicity

variable {α : Type} [Inhabited α]

/-- A transfer that waits moves one block or none, on every channel whose two sides have met,
whatever the others call in the meantime and whenever the wait is called off.

A read lasts until there is a block, until the channel is closed or until it is called off.  If
it succeeds, its buffer holds the next block, and exactly that block is gone from the channel;
otherwise the buffer is as it was and the channel as the others have left it.  A write lasts
until there is room, and either puts its samples behind all others, once, or leaves the channel
to the others. -/
theorem transfers_atomic {name : String} {capacity block : Nat} {c : Channel α}
    (hc : create name capacity block = .ok c) {calls : List (Call α)} (hmet : c.WasSteady calls)
    (cancelled : Bool) (rounds : List (List (Aside α))) :
    (∀ out, ∃ made, Scene.Lasts (Scene.ReadOver out) ⟨c.after calls, cancelled⟩ rounds made ∧
      ReadEnds (Scene.passed ⟨c.after calls, cancelled⟩ made.flatten)
        (History.run { channel := c } (calls ++ made.flatten.filterMap Aside.made?)) out
        (readBlocking out (Scene.movesOf rounds) ⟨c.after calls, cancelled⟩)) ∧
    ∀ samples, ∃ made,
      Scene.Lasts (Scene.WriteOver samples) ⟨c.after calls, cancelled⟩ rounds made ∧
      WriteEnds (Scene.passed ⟨c.after calls, cancelled⟩ made.flatten)
        (History.run { channel := c } (calls ++ made.flatten.filterMap Aside.made?)) samples
        (writeBlocking samples (Scene.movesOf rounds) ⟨c.after calls, cancelled⟩) := by
  -- wherever the others lead, the channel is one that was steady, and its history is known
  have hscene : ∀ asides : List (Aside α),
      (Scene.passed ⟨c.after calls, cancelled⟩ asides).channel =
        c.after (calls ++ asides.filterMap Aside.made?) := by
    intro asides
    rw [Scene.channel_passed, after_append]
  have hlive : ∀ asides : List (Aside α),
      (Scene.passed ⟨c.after calls, cancelled⟩ asides).channel.Live ∧
        ((Scene.passed ⟨c.after calls, cancelled⟩ asides).channel.state = .steady ∨
          (Scene.passed ⟨c.after calls, cancelled⟩ asides).channel.state = .closed) := by
    intro asides
    rw [hscene]
    exact (hmet.append _).live hc
  have hv : ∀ asides : List (Aside α),
      (History.run { channel := c } (calls ++ asides.filterMap Aside.made?)).Valid capacity block :=
    fun asides => (History.valid_of_create hc).run _
  have hsame : ∀ asides : List (Aside α),
      (History.run { channel := c } (calls ++ asides.filterMap Aside.made?)).channel =
        (Scene.passed ⟨c.after calls, cancelled⟩ asides).channel := by
    intro asides
    rw [History.channel_run, hscene]
  constructor
  · intro out
    have hlook := fun asides => readBlocking_look (hlive asides).1 (hlive asides).2 (hv asides)
      (hsame asides) out
    obtain ⟨made, hlasts, hend⟩ := Scene.exists_lasts (readBlocking out) Scene.awaitInto_of_over
      (Scene.awaitInto_of_not_over (readAttempt_keeps out)) rounds ⟨c.after calls, cancelled⟩
    refine ⟨made, hlasts.congr fun asides => (hlook asides).2, ?_⟩
    rw [hend]
    exact (hlook made.flatten).1
  · intro samples
    have hlook := fun asides =>
      writeBlocking_look (hlive asides).1 (hlive asides).2 (hv asides) (hsame asides) samples
    obtain ⟨made, hlasts, hend⟩ := Scene.exists_lasts (writeBlocking samples) Scene.await_of_over
      (Scene.await_of_not_over (writeAttempt_keeps samples)) rounds ⟨c.after calls, cancelled⟩
    refine ⟨made, hlasts.congr fun asides => (hlook asides).2, ?_⟩
    rw [hend]
    exact (hlook made.flatten).1

/-- A read waits through a round in which nothing happens.  In the next one the writer fills the
channel and the wait is called off.  The read gives up, with its buffer untouched and both blocks
still there.  A second read, which nobody calls off, takes the first of them. -/
theorem transfers_atomic_interrupted :
    ∃ c : Channel Nat, create "wait" 4 2 = .ok c ∧
      let calls : List (Call Nat) := [.openRing, .attach false]
      let rounds : List (List (Aside Nat)) :=
        [[], [.call (.tryWrite [1, 2]), .call (.tryWrite [3, 4]), .cancel]]
      let given : List (Call Nat) := [.tryWrite [1, 2], .tryWrite [3, 4]]
      c.WasSteady calls ∧
      ((readBlocking [0, 0] (Scene.movesOf rounds) ⟨c.after calls, false⟩).1 =
        some (.error .cancelled) ∧
        (readBlocking [0, 0] (Scene.movesOf rounds) ⟨c.after calls, false⟩).2.1 = [0, 0] ∧
        ∃ made, Scene.Lasts (Scene.ReadOver [0, 0]) ⟨c.after calls, false⟩ rounds made ∧
          ReadEnds (Scene.passed ⟨c.after calls, false⟩ made.flatten)
            (History.run { channel := c } (calls ++ made.flatten.filterMap Aside.made?)) [0, 0]
            (readBlocking [0, 0] (Scene.movesOf rounds) ⟨c.after calls, false⟩)) ∧
      c.WasSteady (calls ++ given) ∧
      (readBlocking [0, 0] [] ⟨c.after (calls ++ given), false⟩).1 = some (.ok ()) ∧
      (readBlocking [0, 0] [] ⟨c.after (calls ++ given), false⟩).2.1 = [1, 2] ∧
      ∃ made, Scene.Lasts (Scene.ReadOver [0, 0]) ⟨c.after (calls ++ given), false⟩ [] made ∧
        ReadEnds (Scene.passed ⟨c.after (calls ++ given), false⟩ made.flatten)
          (History.run { channel := c } (calls ++ given ++ made.flatten.filterMap Aside.made?))
          [0, 0] (readBlocking [0, 0] [] ⟨c.after (calls ++ given), false⟩) := by
  have hnew :
      create "wait" 4 2 = .ok ({ name := "wait", capacity := 4, block := 2 } : Channel Nat) := rfl
  have hmet : WasSteady ({ name := "wait", capacity := 4, block := 2 } : Channel Nat)
      [.openRing, .attach false] := ⟨_, List.prefix_refl _, by decide⟩
  have hlater := hmet.append [.tryWrite [1, 2], .tryWrite [3, 4]]
  exact ⟨_, hnew, hmet, ⟨by decide, by decide, (transfers_atomic hnew hmet false _).1 [0, 0]⟩,
    hlater, by decide, by decide, (transfers_atomic hnew hlater false []).1 [0, 0]⟩

end Atomicity

end Channel

end Dataflow

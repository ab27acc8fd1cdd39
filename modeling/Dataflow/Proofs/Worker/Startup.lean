import Dataflow.Execution
import Dataflow.Proofs.Channel.Meeting
import Dataflow.Proofs.Channel.Table
import Mathlib.Logic.Function.Basic

/-!
# Units that start up together

Every thread opens the channels that it writes, then attaches to those that it reads, then waits for
the readers of those that it writes.  The threads take these steps one at a time and in any order,
with no regard to which of them feeds which.  No step fails, and as long as a thread has steps left
there is one that can take its next step (`startup_not_stuck`).

**Stages.**  The steps that the two owners of a channel have left tell the stage of the channel
(`Standing`): it has not been touched, it was opened, its reader has attached, or the two have met.

**Order.**  The steps of a thread come in three rounds (`StartAction.round`), so one that has a
step of an early round left is not beyond that round.  A step that waits does so for a step of
an earlier round (`Meeting.perform_head`), and so whoever waits does so for a thread that is in
an earlier round.
-/

namespace Dataflow

section Defs

/-- The channel that a step is about. -/
def StartAction.channel : StartAction → NodeId
  | .openRing c => c
  | .attach c => c
  | .await c => c

/-- The round of startup to which a step belongs. -/
def StartAction.round : StartAction → Nat
  | .openRing _ => 0
  | .attach _ => 1
  | .await _ => 2

variable {ι : Type} {σ : ι → Type} {α : Type}

/-- Threads that start up, and the channels that they share. -/
structure Startup (ι : Type) (σ : ι → Type) (α : Type) where
  threads : (i : ι) → UnitThread (σ i) α
  table : ChannelTable α

/-- The steps that a thread has left. -/
def UnitThread.todo {σ : Type} (th : UnitThread σ α) : List StartAction :=
  match th.phase with
  | .starting todo => todo
  | _ => []

namespace Startup

/-- The steps that a thread has left. -/
def todo (s : Startup ι σ α) (i : ι) : List StartAction := (s.threads i).todo

variable [DecidableEq ι] [Inhabited α]

/-- A thread has a turn, unless it has started. -/
def step (s : Startup ι σ α) (i : ι) : Startup ι σ α :=
  if (s.threads i).phase = .starting [] then s
  else
    let (_, th, table) := (s.threads i).turn false s.table
    { threads := Function.update s.threads i th, table }

/-- Threads have turns one after the other. -/
def run (s : Startup ι σ α) (schedule : List ι) : Startup ι σ α := schedule.foldl step s

end Startup

/-- Every channel has one writer and one reader. -/
structure Paired (u : (i : ι) → WorkUnit (σ i) α) : Prop where
  writes : ∀ i, (u i).writes.Nodup
  reads : ∀ i, (u i).reads.Nodup
  writer : ∀ {i j c}, c ∈ (u i).writes → c ∈ (u j).writes → i = j
  reader : ∀ {i j c}, c ∈ (u i).reads → c ∈ (u j).reads → i = j
  read : ∀ {i c}, c ∈ (u i).writes → ∃ j, c ∈ (u j).reads
  written : ∀ {i c}, c ∈ (u i).reads → ∃ j, c ∈ (u j).writes

/-- Neither side of a channel has done anything yet. -/
structure Channel.Untouched (ch : Channel α) : Prop where
  state : ch.state = .uninitialized
  ready : ch.ready = .idle
  attached : ch.attached = .idle

/-- Threads that are about to start, with channels that nobody has touched. -/
structure Launched (s : Startup ι σ α) : Prop where
  paired : Paired fun i => (s.threads i).unit
  phase : ∀ i, (s.threads i).phase = .starting (s.threads i).unit.startActions
  channel : ∀ i, ∀ c ∈ (s.threads i).unit.writes, ∃ ch, s.table[c]? = some ch ∧ ch.Untouched

/-- The stage of a channel is the one that goes with the steps that its writer and its
reader have left. -/
inductive Standing (c : NodeId) (writer reader : List StartAction) (ch : Channel α) : Prop
  | untouched (hopen : .openRing c ∈ writer) (hattach : .attach c ∈ reader)
      (hawait : .await c ∈ writer) (hch : ch.Untouched)
  | opened (hopen : .openRing c ∉ writer) (hattach : .attach c ∈ reader)
      (hawait : .await c ∈ writer) (hstate : ch.state = .attaching) (hready : ch.ready = .raised)
      (hattached : ch.attached = .idle)
  | joined (hopen : .openRing c ∉ writer) (hattach : .attach c ∉ reader)
      (hawait : .await c ∈ writer) (hready : ch.ready = .received)
      (hattached : ch.attached = .raised)
  | met (hopen : .openRing c ∉ writer) (hattach : .attach c ∉ reader) (hawait : .await c ∉ writer)

/-- What holds all along a startup. -/
structure Meeting (u : (i : ι) → WorkUnit (σ i) α) (s : Startup ι σ α) : Prop where
  phase : ∀ i, (s.threads i).phase = .starting (s.todo i)
  suffix : ∀ i, s.todo i <:+ (u i).startActions
  channel : ∀ {c i j}, c ∈ (u i).writes → c ∈ (u j).reads →
    ∃ ch, s.table[c]? = some ch ∧ Standing c (s.todo i) (s.todo j) ch

end Defs

section Order

variable {σ α : Type} {u : WorkUnit σ α}

theorem WorkUnit.mem_startActions {a : StartAction} : a ∈ u.startActions ↔
    a.channel ∈ (if a.round = 1 then u.reads else u.writes) := by
  cases a <;>
    simp [WorkUnit.startActions, WorkUnit.openActions, WorkUnit.attachActions,
      WorkUnit.awaitActions, StartAction.channel, StartAction.round]

theorem WorkUnit.pairwise_round_startActions :
    u.startActions.Pairwise fun a b => a.round ≤ b.round := by
  have hone : ∀ (f : NodeId → StartAction) (l : List NodeId), (∀ c d, (f c).round = (f d).round) →
      (l.map f).Pairwise fun a b => a.round ≤ b.round := fun f l hf =>
    List.pairwise_map.mpr (List.pairwise_of_forall fun c d => Nat.le_of_eq (hf c d))
  refine List.pairwise_append.mpr ⟨List.pairwise_append.mpr
    ⟨hone _ _ fun _ _ => rfl, hone _ _ fun _ _ => rfl, ?_⟩, hone _ _ fun _ _ => rfl, ?_⟩
  · grind [WorkUnit.openActions, WorkUnit.attachActions, StartAction.round]
  · grind [WorkUnit.openActions, WorkUnit.attachActions, WorkUnit.awaitActions, StartAction.round]

theorem WorkUnit.nodup_startActions (hw : u.writes.Nodup) (hr : u.reads.Nodup) :
    u.startActions.Nodup := by
  have hopen : u.openActions.Nodup := hw.map fun _ _ h => by cases h; rfl
  have hattach : u.attachActions.Nodup := hr.map fun _ _ h => by cases h; rfl
  have hawait : u.awaitActions.Nodup := hw.map fun _ _ h => by cases h; rfl
  refine (hopen.append hattach ?_).append hawait ?_
  · grind [WorkUnit.openActions, WorkUnit.attachActions, List.Disjoint]
  · grind [WorkUnit.openActions, WorkUnit.attachActions, WorkUnit.awaitActions, List.Disjoint]

end Order

section Calls

variable {α : Type} {c : NodeId} {ch : Channel α} {t : ChannelTable α}

theorem Channel.attach_of_idle (hready : ch.ready = .idle) (hattached : ch.attached = .idle) :
    ch.attach false = (none, ch) := by
  simp [Channel.attach, Channel.attachAmong, Scene.await, pollUntil, Scene.attempt,
    Channel.seekReady, hready, hattached]

theorem Channel.attach_of_raised (hstate : ch.state = .attaching) (hready : ch.ready = .raised)
    (hattached : ch.attached = .idle) : ch.attach false =
      (some (.ok ()), { ch with state := .steady, ready := .received, attached := .raised }) := by
  simp [Channel.attach, Channel.attachAmong, Scene.await, pollUntil, Scene.attempt,
    Channel.seekReady, hstate, hready, hattached]

theorem Channel.awaitAttached_of_idle (hready : ch.ready ≠ .idle)
    (hattached : ch.attached = .idle) : ch.awaitAttached false = (none, ch) := by
  simp [Channel.awaitAttached, Channel.awaitAttachedAmong, Scene.await, pollUntil, Scene.attempt,
    Channel.seekAttached, hready, hattached]

theorem Channel.awaitAttached_of_raised (hready : ch.ready ≠ .idle)
    (hattached : ch.attached = .raised) :
    ch.awaitAttached false = (some (.ok ()), { ch with attached := .received }) := by
  simp [Channel.awaitAttached, Channel.awaitAttachedAmong, Scene.await, pollUntil, Scene.attempt,
    Channel.seekAttached, hready, hattached]

variable [Inhabited α]

theorem Channel.Untouched.openRing (h : ch.Untouched) : ch.openRing =
    (.ok (), { ch.allocated with state := .attaching, ready := .raised }) := by
  simp [Channel.openRing, Channel.allocated, h.ready, h.state]

theorem perform_openRing (h : t[c]? = some ch) : (StartAction.openRing c).perform false t =
    (some ch.openRing.1, t.insert c ch.openRing.2) := by
  simp [StartAction.perform, ChannelTable.call, h]

theorem perform_attach (h : t[c]? = some ch) : (StartAction.attach c).perform false t =
    ((ch.attach false).1, t.insert c (ch.attach false).2) := by
  simp [StartAction.perform, ChannelTable.call, h]

theorem perform_await (h : t[c]? = some ch) : (StartAction.await c).perform false t =
    ((ch.awaitAttached false).1, t.insert c (ch.awaitAttached false).2) := by
  simp [StartAction.perform, ChannelTable.call, h]

end Calls

section Steps

variable {ι : Type} {σ : ι → Type} {α : Type} [DecidableEq ι]
  {u : (i : ι) → WorkUnit (σ i) α} {s : Startup ι σ α} {i : ι} {a : StartAction}
  {rest : List StartAction}

theorem Standing.congr {c : NodeId} {w r w' r' : List StartAction} {ch : Channel α}
    (h : Standing c w r ch) (hw : ∀ b : StartAction, b.channel = c → (b ∈ w' ↔ b ∈ w))
    (hr : ∀ b : StartAction, b.channel = c → (b ∈ r' ↔ b ∈ r)) : Standing c w' r' ch := by
  have hopen := hw (.openRing c) rfl
  have hattach := hr (.attach c) rfl
  have hawait := hw (.await c) rfl
  cases h with
  | untouched h₁ h₂ h₃ hch => exact .untouched (hopen.mpr h₁) (hattach.mpr h₂) (hawait.mpr h₃) hch
  | opened h₁ h₂ h₃ hs hr ha =>
      exact .opened (h₁ ∘ hopen.mp) (hattach.mpr h₂) (hawait.mpr h₃) hs hr ha
  | joined h₁ h₂ h₃ hr ha =>
      exact .joined (h₁ ∘ hopen.mp) (h₂ ∘ hattach.mp) (hawait.mpr h₃) hr ha
  | met h₁ h₂ h₃ => exact .met (h₁ ∘ hopen.mp) (h₂ ∘ hattach.mp) (h₃ ∘ hawait.mp)

namespace Meeting

omit [DecidableEq ι] in
theorem mem_startActions (h : Meeting u s) (ha : a ∈ s.todo i) : a ∈ (u i).startActions :=
  (h.suffix i).subset ha

omit [DecidableEq ι] in
/-- A thread that has a step of some round left is not beyond that round. -/
theorem round_le (h : Meeting u s) (htodo : s.todo i = a :: rest) {b : StartAction}
    (hb : b ∈ s.todo i) : a.round ≤ b.round := by
  have hsorted := WorkUnit.pairwise_round_startActions.sublist (h.suffix i).sublist
  rw [htodo] at hsorted hb
  rcases List.mem_cons.mp hb with rfl | hb
  · exact Nat.le_refl _
  · exact (List.pairwise_cons.mp hsorted).1 b hb

/-- What is left after a step was taken. -/
theorem mem_update (h : Meeting u s) (hu : Paired u) (htodo : s.todo i = a :: rest) {j : ι}
    {b : StartAction} :
    b ∈ Function.update s.todo i rest j ↔ b ∈ s.todo j ∧ (j = i → b ≠ a) := by
  have hnodup :=
    (WorkUnit.nodup_startActions (hu.writes i) (hu.reads i)).sublist (h.suffix i).sublist
  rw [htodo, List.nodup_cons] at hnodup
  by_cases hji : j = i
  · subst hji
    rw [Function.update_self, htodo, List.mem_cons]
    grind
  · simp [hji]

variable [Inhabited α]

/-- The next step of a thread waits, and then there is a step of an earlier round left somewhere, or
else it is taken.  Then it changes its own channel only, which is left in the next stage. -/
theorem perform_head (h : Meeting u s) (hu : Paired u) (htodo : s.todo i = a :: rest) :
    (a.perform false s.table = (none, s.table) ∧ ∃ j, ∃ b ∈ s.todo j, b.round < a.round) ∨
    ∃ ch, a.perform false s.table = (some (.ok ()), s.table.insert a.channel ch) ∧
      ∀ {j k}, a.channel ∈ (u j).writes → a.channel ∈ (u k).reads →
        Standing a.channel (Function.update s.todo i rest j)
        (Function.update s.todo i rest k) ch := by
  have hhead : a ∈ s.todo i := htodo ▸ List.mem_cons_self
  have hleft := @mem_update _ _ _ _ _ _ _ _ _ h hu htodo
  have howned := WorkUnit.mem_startActions.mp (h.mem_startActions hhead)
  cases a with
  | openRing c =>
      have howns : c ∈ (u i).writes := howned
      obtain ⟨r, hr⟩ := hu.read howns
      obtain ⟨ch, hch, hstand⟩ := h.channel howns hr
      cases hstand with
      | untouched hopen hattach hawait huntouched =>
          refine .inr ⟨_, by rw [perform_openRing hch, huntouched.openRing]; rfl, ?_⟩
          intro j k hj hk
          cases hu.writer hj howns
          cases hu.reader hk hr
          exact .opened (fun hm => (hleft.mp hm).2 rfl rfl) (hleft.mpr ⟨hattach, by simp⟩)
            (hleft.mpr ⟨hawait, by simp⟩) rfl rfl huntouched.attached
      | opened hopen => exact absurd hhead hopen
      | joined hopen => exact absurd hhead hopen
      | met hopen => exact absurd hhead hopen
  | attach c =>
      have howns : c ∈ (u i).reads := howned
      obtain ⟨w, hw⟩ := hu.written howns
      obtain ⟨ch, hch, hstand⟩ := h.channel hw howns
      cases hstand with
      | untouched hopen hattach hawait huntouched =>
          refine .inl ⟨?_, w, _, hopen, Nat.zero_lt_one⟩
          rw [perform_attach hch, Channel.attach_of_idle huntouched.ready huntouched.attached]
          exact congrArg _ (ChannelTable.insert_eq_self hch)
      | opened hopen hattach hawait hstate hready hattached =>
          refine .inr ⟨_, by
            rw [perform_attach hch, Channel.attach_of_raised hstate hready hattached]; rfl, ?_⟩
          intro j k hj hk
          cases hu.writer hj hw
          cases hu.reader hk howns
          exact .joined (fun hm => hopen (hleft.mp hm).1) (fun hm => (hleft.mp hm).2 rfl rfl)
            (hleft.mpr ⟨hawait, by simp⟩) rfl rfl
      | joined _ hattach => exact absurd hhead hattach
      | met _ hattach => exact absurd hhead hattach
  | await c =>
      have howns : c ∈ (u i).writes := howned
      obtain ⟨r, hr⟩ := hu.read howns
      obtain ⟨ch, hch, hstand⟩ := h.channel howns hr
      cases hstand with
      | untouched hopen =>
          -- the writer opens before it waits
          exact absurd (h.round_le htodo hopen) (by simp [StartAction.round])
      | opened hopen hattach hawait hstate hready hattached =>
          refine .inl ⟨?_, r, _, hattach, Nat.one_lt_two⟩
          rw [perform_await hch, Channel.awaitAttached_of_idle (by simp [hready]) hattached]
          exact congrArg _ (ChannelTable.insert_eq_self hch)
      | joined hopen hattach hawait hready hattached =>
          refine .inr ⟨_, by
            rw [perform_await hch, Channel.awaitAttached_of_raised (by simp [hready]) hattached]
            rfl, ?_⟩
          intro j k hj hk
          cases hu.writer hj howns
          cases hu.reader hk hr
          exact .met (fun hm => hopen (hleft.mp hm).1) (fun hm => hattach (hleft.mp hm).1)
            (fun hm => (hleft.mp hm).2 rfl rfl)
      | met _ _ hawait => exact absurd hhead hawait

end Meeting

end Steps

section Runs

variable {ι : Type} {σ : ι → Type} {α : Type} [DecidableEq ι] [Inhabited α]
  {u : (i : ι) → WorkUnit (σ i) α} {s : Startup ι σ α} {i : ι} {a : StartAction}
  {rest : List StartAction} {t : ChannelTable α}

theorem Startup.step_of_waits (hphase : (s.threads i).phase = .starting (a :: rest))
    (ha : a.perform false s.table = (none, s.table)) : s.step i = s := by
  simp [Startup.step, UnitThread.turn, hphase, ha]

theorem Startup.step_of_taken (hphase : (s.threads i).phase = .starting (a :: rest))
    (ha : a.perform false s.table = (some (.ok ()), t)) : s.step i =
      ⟨Function.update s.threads i { s.threads i with phase := .starting rest }, t⟩ := by
  simp [Startup.step, UnitThread.turn, hphase, ha]

namespace Meeting

/-- Whatever thread has its turn, stages and steps go on together. -/
theorem step (h : Meeting u s) (hu : Paired u) (i : ι) : Meeting u (s.step i) := by
  have hphase := h.phase i
  cases htodo : s.todo i with
  | nil =>
      rw [htodo] at hphase
      simpa [Startup.step, hphase] using h
  | cons a rest =>
      rw [htodo] at hphase
      rcases h.perform_head hu htodo with ⟨hwaits, -⟩ | ⟨ch, htaken, hstand⟩
      · rwa [Startup.step_of_waits hphase hwaits]
      · rw [Startup.step_of_taken hphase htaken]
        have hleft : Startup.todo ⟨Function.update s.threads i
            { s.threads i with phase := .starting rest }, s.table.insert a.channel ch⟩ =
            Function.update s.todo i rest := by
          funext j
          by_cases hji : j = i
          · subst hji
            simp [Startup.todo, UnitThread.todo]
          · simp [Startup.todo, hji]
        refine ⟨fun j => ?_, fun j => ?_, fun {c j k} hj hk => ?_⟩
        · rw [hleft]
          by_cases hji : j = i
          · subst hji
            simp
          · simpa [hji] using h.phase j
        · rw [hleft]
          by_cases hji : j = i
          · subst hji
            rw [Function.update_self]
            exact ((List.suffix_cons a rest).trans (htodo ▸ h.suffix j))
          · rw [Function.update_of_ne hji]
            exact h.suffix j
        · rw [hleft]
          by_cases hc : c = a.channel
          · subst hc
            exact ⟨ch, by simp, hstand hj hk⟩
          · -- the step was about another channel
            obtain ⟨old, hold, hstand⟩ := h.channel hj hk
            have hother : ∀ (l : ι) (b : StartAction), b.channel = c →
                (b ∈ Function.update s.todo i rest l ↔ b ∈ s.todo l) := by
              rintro l b rfl
              rw [h.mem_update hu htodo, and_iff_left]
              rintro - rfl
              exact hc rfl
            refine ⟨old, ?_, hstand.congr (hother j) (hother k)⟩
            rw [Std.ExtTreeMap.getElem?_insert, if_neg, hold]
            simpa using fun heq => hc heq.symm

theorem run (h : Meeting u s) (hu : Paired u) (schedule : List ι) : Meeting u (s.run schedule) := by
  induction schedule generalizing s with
  | nil => exact h
  | cons i rest ih => exact ih (h.step hu i)

/-- As long as a thread has steps left, one of the threads can take its next step. -/
theorem exists_taken (h : Meeting u s) (hu : Paired u) (htodo : s.todo i = a :: rest) :
    ∃ j b more, s.todo j = b :: more ∧ (b.perform false s.table).1 = some (.ok ()) := by
  -- a step that waits does so for a thread in an earlier round
  induction hround : a.round using Nat.strongRecOn generalizing i a rest with
  | ind n ih =>
      rcases h.perform_head hu htodo with ⟨-, k, b, hb, hearlier⟩ | ⟨ch, htaken, -⟩
      · obtain ⟨first, others, hfirst⟩ := List.exists_cons_of_ne_nil (List.ne_nil_of_mem hb)
        have hle := h.round_le hfirst hb
        exact ih first.round (by omega) hfirst rfl
      · exact ⟨i, a, rest, htodo, by rw [htaken]⟩

end Meeting

omit [DecidableEq ι] [Inhabited α] in
theorem Launched.meeting (h : Launched s) : Meeting (fun i => (s.threads i).unit) s := by
  have htodo : ∀ i, s.todo i = (s.threads i).unit.startActions := by
    intro i
    simp [Startup.todo, UnitThread.todo, h.phase i]
  refine ⟨fun i => by rw [htodo, h.phase], fun i => (htodo i) ▸ List.suffix_rfl,
    fun {c i j} hi hj => ?_⟩
  obtain ⟨ch, hch, huntouched⟩ := h.channel i c hi
  refine ⟨ch, hch, .untouched ?_ ?_ ?_ huntouched⟩
  · rw [htodo]
    exact WorkUnit.mem_startActions.mpr hi
  · rw [htodo]
    exact WorkUnit.mem_startActions.mpr hj
  · rw [htodo]
    exact WorkUnit.mem_startActions.mpr hi

/-- Threads whose channels have one writer and one reader each start up without getting stuck, in
whatever order they have their turns: none of them exits, no step that is next fails, and as long as
a thread has not started one that has not can take its next step. -/
theorem startup_not_stuck (s : Startup ι σ α) (h : Launched s) (schedule : List ι) :
    (∀ i, ∃ todo, ((s.run schedule).threads i).phase = .starting todo ∧
      todo <:+ (s.threads i).unit.startActions) ∧
    (∀ i a rest e, ((s.run schedule).threads i).phase = .starting (a :: rest) →
      (a.perform false (s.run schedule).table).1 ≠ some (.error e)) ∧
    ((∃ i, ((s.run schedule).threads i).phase ≠ .starting []) →
      ∃ i a rest, ((s.run schedule).threads i).phase = .starting (a :: rest) ∧
        (a.perform false (s.run schedule).table).1 = some (.ok ())) := by
  have hrun := h.meeting.run h.paired schedule
  refine ⟨fun i => ⟨_, hrun.phase i, hrun.suffix i⟩, fun i a rest e hphase => ?_, ?_⟩
  · have htodo : (s.run schedule).todo i = a :: rest := by
      simp [Startup.todo, UnitThread.todo, hphase]
    rcases hrun.perform_head h.paired htodo with ⟨hwaits, -⟩ | ⟨ch, htaken, -⟩
    · simp [hwaits]
    · simp [htaken]
  · rintro ⟨i, hi⟩
    have hleft : (s.run schedule).todo i ≠ [] := fun hnil => hi (by rw [hrun.phase i, hnil])
    obtain ⟨a, rest, htodo⟩ := List.exists_cons_of_ne_nil hleft
    obtain ⟨j, b, more, htodo, htaken⟩ := hrun.exists_taken h.paired htodo
    exact ⟨j, b, more, by rw [hrun.phase j, htodo], htaken⟩

end Runs

section Cycle

/-- Two units that feed each other, and a local of the first one. -/
def cycleUnits : Fin 2 → WorkUnit Unit Nat
  | 0 => .create ∅ ⟨0⟩ [⟨1⟩] [⟨0⟩] [⟨2⟩] (fun _ _ outs => .ok ⟨.proceed, outs, ()⟩) ()
  | 1 => .create ∅ ⟨1⟩ [⟨0⟩] [⟨1⟩] [] (fun _ _ outs => .ok ⟨.proceed, outs, ()⟩) ()

/-- Threads of these units that are about to start. -/
def cycle : Startup (Fin 2) (fun _ => Unit) Nat where
  threads i := ⟨cycleUnits i, .starting (cycleUnits i).startActions⟩
  table :=
    let channels : List (NodeId × Channel Nat) :=
      [(⟨0⟩, { name := "forth", capacity := 2, block := 1 }),
        (⟨1⟩, { name := "back", capacity := 2, block := 1 }),
        (⟨2⟩, { name := "own", capacity := 2, block := 1 })]
    .ofList channels

theorem paired_cycleUnits : Paired cycleUnits := by
  have hwriter : ∀ i j : Fin 2, ∀ c ∈ (cycleUnits i).writes, c ∈ (cycleUnits j).writes → i = j := by
    decide
  have hreader : ∀ i j : Fin 2, ∀ c ∈ (cycleUnits i).reads, c ∈ (cycleUnits j).reads → i = j := by
    decide
  have hread : ∀ i : Fin 2, ∀ c ∈ (cycleUnits i).writes, ∃ j : Fin 2, c ∈ (cycleUnits j).reads := by
    decide
  have hwritten : ∀ i : Fin 2, ∀ c ∈ (cycleUnits i).reads,
      ∃ j : Fin 2, c ∈ (cycleUnits j).writes := by
    decide
  exact ⟨by decide, by decide, @fun i j c => hwriter i j c, @fun i j c => hreader i j c,
    @fun i c => hread i c, @fun i c => hwritten i c⟩

theorem launched_cycle : Launched cycle := by
  have hfresh : ∀ i : Fin 2, ∀ c ∈ (cycleUnits i).writes, cycle.table[c]?.any (fun ch =>
      decide (ch.state = .uninitialized ∧ ch.ready = .idle ∧ ch.attached = .idle)) = true := by
    decide
  refine ⟨paired_cycleUnits, fun _ => rfl, fun i c hc => ?_⟩
  obtain ⟨ch, hch, htest⟩ := Option.any_eq_true _ _ |>.mp (hfresh i c hc)
  obtain ⟨hstate, hready, hattached⟩ := of_decide_eq_true htest
  exact ⟨ch, hch, hstate, hready, hattached⟩

/-- The first thread has opened its channels and waits for the second one, which has not done
anything yet. -/
theorem startup_not_stuck_cycle : Launched cycle ∧
    (cycle.run [0, 0, 0, 0]).todo 0 = [.attach ⟨1⟩, .attach ⟨2⟩, .await ⟨0⟩, .await ⟨2⟩] ∧
    ∃ i a rest, ((cycle.run [0, 0, 0, 0]).threads i).phase = .starting (a :: rest) ∧
      (a.perform false (cycle.run [0, 0, 0, 0]).table).1 = some (.ok ()) := by
  have hwaits : ((cycle.run [0, 0, 0, 0]).threads 0).phase =
      .starting [.attach ⟨1⟩, .attach ⟨2⟩, .await ⟨0⟩, .await ⟨2⟩] := by
    decide +kernel
  refine ⟨launched_cycle, by simp [Startup.todo, UnitThread.todo, hwaits], ?_⟩
  exact (startup_not_stuck cycle launched_cycle [0, 0, 0, 0]).2.2 ⟨0, by simp [hwaits]⟩

end Cycle
end Dataflow

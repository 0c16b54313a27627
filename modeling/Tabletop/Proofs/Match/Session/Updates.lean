import Tabletop.Proofs.Match.Log
import Tabletop.Proofs.Match.Session.Turns

/-!
Updates of sessions. A listener that stays is told every line of the log once and in order, and every
board after the lines before it. Whoever listens, the match goes the same way.
-/

namespace Tabletop

def Update.line? {Board : Type} : Update Board → Option Diagnostic
  | .diagnostic line => some line
  | .board .. => none

theorem filterMap_line? {Board : Type} (lines : List Diagnostic) :
    (lines.map (Update.diagnostic : Diagnostic → Update Board)).filterMap Update.line? = lines := by
  rw [List.filterMap_map]
  exact List.filterMap_some

namespace Session

section
variable {Board : Type}

/-- A session that somebody begins to listen to. -/
def subscribed (s : Session Board) : Session Board :=
  { s with listener := .listening, known := s.game.log.length, updates := [] }

/-- A session without its listener. -/
def unheard (s : Session Board) : Session Board :=
  { s with listener := .absent, known := 0, updates := [] }

/-- Sessions that differ in nothing but their listeners. -/
def Alike (s u : Session Board) : Prop := s.unheard = u.unheard

end

variable {Board : Type} [StrongPlay Board]

namespace Made

/-- The lines that a call adds to the log. -/
def lines (made : Made Board) : List Diagnostic := made.after.log.drop made.before.log.length

/-- What is told after a call: its lines and the board, but nothing if there was no turn to play. -/
def told (made : Made Board) : List (Update Board) :=
  match made.reply with
  | .job (.ok none) => []
  | _ => made.lines.map .diagnostic ++ [.board made.after.board made.after.mover made.after.phase]

/-- Nothing is drained from the log. -/
def Keeps (made : Made Board) : Prop := made.call ≠ .drainLog

theorem Keeps.log {made : Made Board} (keeps : made.Keeps) :
    made.before.log ++ made.lines = made.after.log :=
  List.prefix_iff_eq_append.mp (made.before.log_call keeps)

theorem told_cases (made : Made Board) :
    (made.told = [] ∧ made.after = made.before) ∨
      made.told =
        made.lines.map .diagnostic ++ [.board made.after.board made.after.mover made.after.phase] := by
  unfold told
  split
  · rename_i quiet
    obtain ⟨before, call⟩ := made
    cases call with
    | beginTurn =>
      rw [reply_beginTurn, Match.Reply.job.injEq] at quiet
      rw [after_beginTurn]
      exact .inl ⟨rfl, (Match.beginTurn_idle quiet).1⟩
    | event | completeLocal | completeRemote | setProgram | drainLog => cases quiet
  · exact .inr rfl

theorem Keeps.log_told {made : Made Board} (keeps : made.Keeps) :
    made.before.log ++ made.told.filterMap Update.line? = made.after.log := by
  rcases made.told_cases with ⟨nothing, same⟩ | told
  · rw [nothing, same]
    exact List.append_nil _
  · rw [told, List.filterMap_append, filterMap_line?]
    exact (congrArg _ (List.append_nil _)).trans keeps.log

end Made

/-- The match after one of the calls that were made on it, and what was logged until then. -/
def Moment (m : Match Board) (history : List (Made Board)) (lines : List Diagnostic) (board : Board)
    (mover : Mark) (phase : Phase) : Prop :=
  ∃ past made rest, history = past ++ made :: rest ∧ made.after.board = board ∧
    made.after.mover = mover ∧ made.after.phase = phase ∧ m.log ++ lines = made.after.log

/-- How a listener that stays is told of the calls of a session. -/
structure TellsAll (s : Session Board) (history : List (Made Board)) (t : Session Board) : Prop where
  updates : t.updates = history.flatMap Made.told
  lines : s.game.log ++ t.updates.filterMap Update.line? = t.game.log
  unsent : t.known = t.game.log.length
  boards : ∀ earlier later board mover phase,
    t.updates = earlier ++ .board board mover phase :: later →
      Moment s.game history (earlier.filterMap Update.line?) board mover phase

/-! ## What is told of calls -/

variable {stage next last : Stage} {s t : Session Board} {made history : List (Made Board)}

theorem Step.keeps (step : Step stage s made next t) : ∀ call ∈ made, call.Keeps := by
  cases step with
  | asked | closed | rescheduled | left => exact List.forall_mem_nil _
  | _ => exact List.forall_mem_singleton.mpr (by simp [Made.Keeps])

theorem Course.keeps (course : Course stage s history last t) : ∀ call ∈ history, call.Keeps := by
  induction course with
  | done => exact List.forall_mem_nil _
  | step first _ of_others => exact List.forall_mem_append.mpr ⟨first.keeps, of_others⟩

theorem log_of_follows {m after : Match Board} (follows : Follows m history after)
    (keeps : ∀ call ∈ history, call.Keeps) :
    m.log ++ (history.flatMap Made.told).filterMap Update.line? = after.log := by
  induction history generalizing m with
  | nil =>
    obtain rfl : m = after := follows
    exact List.append_nil _
  | cons made rest of_rest =>
    obtain ⟨keeps, others⟩ := List.forall_mem_cons.mp keeps
    obtain ⟨rfl, follows⟩ := follows
    rw [List.flatMap_cons, List.filterMap_append, ← List.append_assoc, keeps.log_told]
    exact of_rest follows others

theorem Moment.later {call : Made Board} {lines : List Diagnostic} {board : Board} {mover : Mark}
    {phase : Phase} (moment : Moment call.after history lines board mover phase) (keeps : call.Keeps) :
    Moment call.before (call :: history) (call.told.filterMap Update.line? ++ lines) board mover phase := by
  obtain ⟨past, made, rest, rfl, same⟩ := moment
  refine ⟨call :: past, made, rest, rfl, ?_⟩
  rw [← List.append_assoc, keeps.log_told]
  exact same

theorem moment_of_follows {m after : Match Board} (follows : Follows m history after)
    (keeps : ∀ call ∈ history, call.Keeps) {earlier later : List (Update Board)} {board : Board}
    {mover : Mark} {phase : Phase}
    (parts : history.flatMap Made.told = earlier ++ .board board mover phase :: later) :
    Moment m history (earlier.filterMap Update.line?) board mover phase := by
  induction history generalizing m earlier with
  | nil => simp at parts
  | cons made rest of_rest =>
    obtain ⟨keeps, others⟩ := List.forall_mem_cons.mp keeps
    obtain ⟨rfl, follows⟩ := follows
    -- the board comes either with one of the calls after this one or with this one
    have later_call : ∀ {more}, rest.flatMap Made.told = more ++ .board board mover phase :: later →
        Moment made.before (made :: rest) ((made.told ++ more).filterMap Update.line?) board mover
          phase := by
      intro more told
      rw [List.filterMap_append]
      exact (of_rest follows others told).later keeps
    rw [List.flatMap_cons] at parts
    rcases List.append_eq_append_iff.mp parts with ⟨more, rfl, told⟩ | ⟨more, first, told⟩
    · exact later_call told
    · cases more with
      | nil =>
        rw [List.append_nil] at first
        subst first
        simpa using @later_call [] told.symm
      | cons update more =>
        obtain ⟨rfl, -⟩ := List.cons.inj told
        rcases made.told_cases with ⟨nothing, _⟩ | all
        · rw [nothing] at first
          simp at first
        · rw [all] at first
          obtain ⟨rfl, same, -⟩ := (List.append_cons_inj_of_notMem (by simp) (by simp)).mp first
          cases same
          refine ⟨[], made, rest, rfl, rfl, rfl, rfl, ?_⟩
          rw [filterMap_line?]
          exact keeps.log

/-! ## Nothing is told twice or left out -/

omit [StrongPlay Board] in
theorem listening_of_publish (stays : t.publish.listener = .listening)
    (same : t.listener = s.listener) : s.listener = .listening := by
  rw [← same]
  unfold publish at stays
  split at stays
  · exact stays
  · cases stays
  · assumption

theorem Step.listening (step : Step stage s made next t) (stays : t.listener = .listening) :
    s.listener = .listening := by
  cases step with
  | idle | closed | asked | rescheduled => exact stays
  | left => cases stays
  | failed | locked => exact listening_of_publish stays rfl
  | heard | came =>
    rw [handleEvent_eq] at stays
    exact listening_of_publish stays rfl
  | chose | answered =>
    rw [complete_eq] at stays
    exact listening_of_publish stays rfl

/-- What is told of some calls between two sessions, if their listener stays. -/
def Tells (s : Session Board) (made : List (Made Board)) (t : Session Board) : Prop :=
  s.known = s.game.log.length →
    t.known = t.game.log.length ∧ t.updates = s.updates ++ made.flatMap Made.told

/-- After a call its lines and the board are published. -/
theorem tells_publish {call : Made Board} (stays : t.publish.listener = .listening)
    (before : s.game = call.before) (after : t.game = call.after) (same : t.known = s.known)
    (updates : t.updates = s.updates) (loud : call.reply ≠ .job (.ok none)) : Tells s [call] t.publish := by
  intro known
  have told : call.told =
      call.lines.map .diagnostic ++ [.board call.after.board call.after.mover call.after.phase] := by
    unfold Made.told
    split
    · contradiction
    · rfl
  rw [before] at known
  unfold publish
  rw [listening_of_publish stays rfl]
  dsimp only
  refine ⟨rfl, ?_⟩
  rw [List.flatMap_singleton, told, after, same, known, updates, List.append_assoc]
  rfl

theorem Step.tells (step : Step stage s made next t) (stays : t.listener = .listening) :
    Tells s made t := by
  cases step with
  | idle nothing =>
    intro known
    obtain ⟨same, _⟩ := Match.beginTurn_idle nothing
    refine ⟨known.trans (by rw [same]), ?_⟩
    simp [Made.told, nothing]
  | failed fails =>
    exact tells_publish stays rfl (Made.after_beginTurn _).symm rfl rfl (by simp [fails])
  | locked locks =>
    exact tells_publish stays rfl (Made.after_beginTurn _).symm rfl rfl (by simp [locks])
  | heard | came =>
    rw [handleEvent_eq] at stays ⊢
    exact tells_publish stays rfl (Made.after_event _ _ _).symm rfl rfl
      (by simp [Made.reply, Match.call])
  | chose =>
    rw [complete_eq] at stays ⊢
    exact tells_publish stays rfl (Made.after_completeLocal _ _).symm rfl rfl
      (by simp [Made.reply, Match.call])
  | answered =>
    rw [complete_eq] at stays ⊢
    exact tells_publish stays rfl (Made.after_completeRemote _ _ _).symm rfl rfl
      (by simp [Made.reply, Match.call])
  | closed | asked | rescheduled => exact fun known => ⟨known, (List.append_nil _).symm⟩
  | left => cases stays

theorem Course.listening (course : Course stage s history last t) (stays : t.listener = .listening) :
    s.listener = .listening := by
  induction course with
  | done => exact stays
  | step first _ of_others => exact first.listening (of_others stays)

theorem Course.tells (course : Course stage s history last t) (stays : t.listener = .listening) :
    Tells s history t := by
  induction course with
  | done => exact fun known => ⟨known, (List.append_nil _).symm⟩
  | step first others of_others =>
    intro known
    obtain ⟨known, updates⟩ := first.tells (others.listening stays) known
    obtain ⟨known, more⟩ := of_others stays known
    refine ⟨known, ?_⟩
    rw [more, updates, List.flatMap_append, List.append_assoc]

theorem tellsAll_of_ends (ends : Ends s.subscribed history t) (stays : t.listener = .listening) :
    TellsAll s history t := by
  obtain ⟨course, _⟩ := ends
  have follows : Follows s.game history t.game := course.follows
  obtain ⟨known, updates⟩ := course.tells stays rfl
  replace updates : t.updates = history.flatMap Made.told := updates
  refine ⟨updates, ?_, known, ?_⟩
  · rw [updates]
    exact log_of_follows follows course.keeps
  · intro earlier later board mover phase told
    rw [updates] at told
    exact moment_of_follows follows course.keeps told

/-! ## Whoever listens -/

omit [StrongPlay Board] in
theorem unheard_publish (s : Session Board) : s.publish.unheard = s.unheard := by
  unfold publish
  split <;> rfl

theorem handleEvent_unheard (s : Session Board) (event : Event) :
    s.unheard.handleEvent event = (s.handleEvent event).unheard := by
  unfold handleEvent
  rw [unheard_publish]
  rfl

theorem foldl_handleEvent_unheard (events : List Event) (s : Session Board) :
    events.foldl handleEvent s.unheard = (events.foldl handleEvent s).unheard := by
  induction events generalizing s with
  | nil => rfl
  | cons event events of_events =>
    rw [List.foldl_cons, List.foldl_cons, handleEvent_unheard, of_events]

theorem wait_unheard (s : Session Board) : s.unheard.wait = s.wait.unheard := by
  unfold wait
  dsimp only
  rw [foldl_handleEvent_unheard]
  rfl

omit [StrongPlay Board] in
theorem ask_unheard (s : Session Board) : s.unheard.ask = (s.ask.1, s.ask.2.unheard) := by
  unfold ask
  dsimp only [unheard]
  split <;> rfl

omit [StrongPlay Board] in
theorem complete_unheard (s : Session Board) (completed : Match.Completed Board) :
    s.unheard.complete completed = ((s.complete completed).1, (s.complete completed).2.unheard) := by
  unfold complete
  rw [unheard_publish]
  rfl

theorem takeTurn_unheard (s : Session Board) :
    s.unheard.takeTurn = (s.takeTurn.1, s.takeTurn.2.unheard) := by
  have same : s.unheard.game = s.game := rfl
  unfold takeTurn
  rw [same]
  split
  · rfl
  · rename_i game _
    rw [unheard_publish]
    rfl
  · rename_i job game _
    have published : { s.unheard with game := game }.publish = { s with game := game }.publish.unheard := by
      rw [unheard_publish]
      rfl
    dsimp only
    rw [published]
    generalize { s with game := game }.publish = t
    have waits : (if t.unheard.game.settings.moveDelay = 0 then t.unheard else t.unheard.wait) =
        (if t.game.settings.moveDelay = 0 then t else t.wait).unheard := by
      rw [wait_unheard]
      exact (apply_ite unheard (t.game.settings.moveDelay = 0) t t.wait).symm
    rw [waits]
    generalize (if t.game.settings.moveDelay = 0 then t else t.wait) = t
    cases job with
    | «local» difficulty => exact complete_unheard t _
    | remote payload =>
      dsimp only
      rw [wait_unheard, ask_unheard]
      exact complete_unheard _ _

theorem takeTurns_unheard (count : Nat) (s : Session Board) :
    s.unheard.takeTurns count = (s.takeTurns count).unheard := by
  induction count generalizing s with
  | zero => rfl
  | succ count of_count =>
    unfold takeTurns
    rw [takeTurn_unheard]
    obtain ⟨moved, t⟩ := s.takeTurn
    cases moved with
    | true => exact of_count t
    | false => rfl

theorem runFor_unheard (count : Nat) (s : Session Board) :
    s.unheard.runFor count = (s.runFor count).unheard := by
  have settles : ∀ s : Session Board, s.unheard.settle = s.settle.unheard :=
    fun s => takeTurns_unheard _ s
  induction count generalizing s with
  | zero => exact settles s
  | succ count of_count =>
    unfold runFor
    dsimp only
    rw [settles]
    generalize s.settle = t
    have same : t.unheard.queue = t.queue := rfl
    rw [same]
    split
    · rfl
    · rename_i event rest _
      rw [← of_count, ← handleEvent_unheard]
      rfl

theorem Alike.run {s u : Session Board} (alike : Alike s u) : Alike s.run u.run := by
  have runs : ∀ s : Session Board, s.unheard.run = s.run.unheard := fun s => runFor_unheard _ s
  unfold Alike at alike ⊢
  rw [← runs s, ← runs u, alike]

omit [StrongPlay Board] in
theorem Alike.eq {s u : Session Board} (alike : Alike s u) :
    u = { s with listener := u.listener, known := u.known, updates := u.updates } := by
  obtain ⟨_, _, _, _, _, _, _, _, _⟩ := s
  obtain ⟨_, _, _, _, _, _, _, _, _⟩ := u
  cases alike
  rfl

omit [StrongPlay Board] in
theorem Alike.publish {s u : Session Board} (alike : Alike s u) : Alike s.publish u.publish := by
  unfold Alike at alike ⊢
  rw [unheard_publish, unheard_publish, alike]

theorem Alike.handleEvent {s u : Session Board} (alike : Alike s u) (event : Event) :
    Alike (s.handleEvent event) (u.handleEvent event) := by
  unfold Alike at alike ⊢
  rw [← handleEvent_unheard, ← handleEvent_unheard, alike]

omit [StrongPlay Board] in
theorem Alike.complete {s u : Session Board} (alike : Alike s u) (completed : Match.Completed Board) :
    Alike (s.complete completed).2 (u.complete completed).2 := by
  have same := congrArg (·.complete completed) alike
  simp only [complete_unheard] at same
  exact congrArg Prod.snd same

/-- The same calls can be made on a session, whoever listens to it. -/
theorem Step.alike {u : Session Board} (step : Step stage s made next t) (alike : Alike s u) :
    ∃ v, Course stage u made next v ∧ Alike t v := by
  rw [alike.eq]
  generalize u.listener = listener, u.known = known, u.updates = updates
  cases step with
  | idle nothing => exact ⟨_, Step.course (.idle (by exact nothing)), rfl⟩
  | failed fails => exact ⟨_, Step.course (.failed (by exact fails)), Alike.publish rfl⟩
  | locked locks => exact ⟨_, Step.course (.locked (by exact locks)), Alike.publish rfl⟩
  | heard next => exact ⟨_, Step.course (.heard (by exact next)), Alike.handleEvent (by rfl) _⟩
  | closed empty => exact ⟨_, Step.course (.closed (by exact empty)), rfl⟩
  | came waits next => exact ⟨_, Step.course (.came (by exact waits) (by exact next)), Alike.handleEvent (by rfl) _⟩
  | chose => exact ⟨_, Step.course .chose, Alike.complete (by rfl) _⟩
  | asked => exact ⟨_, Step.course .asked, rfl⟩
  | answered answer => exact ⟨_, Step.course (.answered answer), Alike.complete (by rfl) _⟩
  | rescheduled arrivals answers => exact ⟨_, Step.course (.rescheduled arrivals answers), rfl⟩
  | left => exact ⟨_, .done, rfl⟩

theorem Course.alike {u : Session Board} (course : Course stage s history last t) (alike : Alike s u) :
    ∃ v, Course stage u history last v ∧ Alike t v := by
  induction course generalizing u with
  | done => exact ⟨u, .done, alike⟩
  | step first _ of_others =>
    obtain ⟨v, begins, alike⟩ := first.alike alike
    obtain ⟨w, goes, alike⟩ := of_others alike
    exact ⟨w, begins.trans goes, alike⟩

theorem Ends.alike {u : Session Board} (ends : Ends s history t) (alike : Alike s u) :
    ∃ v, Ends u history v ∧ Alike t v := by
  obtain ⟨course, empty⟩ := ends
  obtain ⟨v, course, alike⟩ := course.alike alike
  have same : v.queue = t.queue := by rw [alike.eq]
  exact ⟨v, ⟨course, same.trans empty⟩, alike⟩

/-- Every session of a game tells a listener that stays all there is to tell, and no session depends on its
listener. -/
def SessionsTell (Board : Type) [StrongPlay Board] : Prop :=
  (∀ s : Session Board,
    (∀ history t, Ends s.subscribed history t → t.listener = .listening → TellsAll s history t) ∧
    ∃ history, Ends s.subscribed history s.subscribed.run ∧
      TellsAll s history s.subscribed.run) ∧
  ∀ s u : Session Board, Alike s u →
    Alike s.run u.run ∧ ∀ history t, Ends s history t → ∃ v, Ends u history v ∧ Alike t v

theorem sessionsTell (Board : Type) [StrongPlay Board] [EndingRules Board] : SessionsTell Board := by
  constructor
  · intro s
    obtain ⟨⟨history, ends⟩, stays⟩ := ends_run s.subscribed
    exact ⟨fun _ _ => tellsAll_of_ends, history, ends, tellsAll_of_ends ends (stays rfl)⟩
  · intro s u alike
    exact ⟨alike.run, fun _ _ ends => ends.alike alike⟩

/-- Whatever is sent, answered and waited for, in every game: who listens until the end is told every line
that is logged once and in order, and each board at its moment, when all lines until then were told; nothing
is left untold. One who is not there, or leaves, makes no difference to the match. -/
theorem updates_complete_and_harmless :
    SessionsTell ThreeInARow ∧ SessionsTell DropGame ∧ SessionsTell SowingGame :=
  ⟨sessionsTell _, sessionsTell _, sessionsTell _⟩

theorem updates_complete_and_harmless_twoMoves :
    (∃ history, TellsAll twoMoves history twoMoves.subscribed.run) ∧
      Alike twoMoves.run twoMoves.unheard.run := by
  obtain ⟨⟨tells, alike⟩, _⟩ := updates_complete_and_harmless
  obtain ⟨_, history, _, told⟩ := tells twoMoves
  exact ⟨⟨history, told⟩, (alike twoMoves twoMoves.unheard rfl).1⟩

end Session
end Tabletop

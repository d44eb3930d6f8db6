import ClearNames.Proofs.Steps
import ClearNames.Release.Basic

/-! What each part of a release comes to, and which requests it makes.

Wherever a part starts, it adds records and requests to those before and comes
to the same outcome. Up to the upload nothing is requested, and the outcome of
the upload is what the reply to its one request says.
-/

set_option autoImplicit false

namespace ClearNames

namespace Run
variable {α β : Type}

/-- A run that comes to an outcome and makes requests, whatever was written and requested before. -/
def Comes (run : Run α) (outcome : Except Abort α) (posts : List Post) : Prop :=
  ∀ trace, ∃ records, (ExceptT.run run |>.run trace : Id _).run =
    (outcome, ⟨trace.records ++ records, trace.posts ++ posts⟩)

theorem comes_pure (value : α) : (pure value : Run α).Comes (.ok value) [] :=
  fun trace => ⟨[], by simp only [List.append_nil]; rfl⟩

theorem comes_throw (abort : Abort) : (throw abort : Run α).Comes (.error abort) [] :=
  fun trace => ⟨[], by simp only [List.append_nil]; rfl⟩

theorem comes_note (records : List Record) : (note records).Comes (.ok ()) [] :=
  fun trace => ⟨records, by simp only [List.append_nil]; rfl⟩

theorem comes_request (post : Post) :
    (modify fun trace => { trace with posts := trace.posts ++ [post] } : Run Unit).Comes (.ok ()) [post] :=
  fun trace => ⟨[], by simp only [List.append_nil]; rfl⟩

section
variable {step : Run α} {next : α → Run β} {posts others : List Post}

theorem Comes.bind {value : α} {outcome : Except Abort β} (first : step.Comes (.ok value) posts)
    (rest : (next value).Comes outcome others) : (step >>= next).Comes outcome (posts ++ others) := by
  intro trace
  obtain ⟨records, ran⟩ := first trace
  obtain ⟨more, ended⟩ := rest ⟨trace.records ++ records, trace.posts ++ posts⟩
  refine ⟨records ++ more, ?_⟩
  rw [run_bind_of_ok ran, ended]
  simp only [List.append_assoc]

theorem Comes.bind_error {abort : Abort} (first : step.Comes (.error abort) posts) :
    (step >>= next).Comes (.error abort) posts := by
  intro trace
  obtain ⟨records, ran⟩ := first trace
  exact ⟨records, run_bind_of_error ran next⟩

theorem Comes.then {value : α} {outcome : Except Abort β} (first : step.Comes (.ok value) [])
    (rest : (next value).Comes outcome others) : (step >>= next).Comes outcome others :=
  first.bind rest

end

theorem Comes.outcome_eq {run : Run α} {outcome : Except Abort α} {posts : List Post} (comes : run.Comes outcome posts) :
    run.outcome.1 = outcome ∧ run.outcome.2.posts = posts := by
  obtain ⟨records, ran⟩ := comes ⟨[], []⟩
  rw [Run.outcome, ran]
  exact ⟨rfl, rfl⟩

end Run

namespace Upload

/-- What a reply makes of an upload. -/
def answered : ServerReply → Except Abort UploadOutcome
  | .response status text =>
    .ok (if status = 200 ∨ status = 201 then .accepted else .refused (refusal status text))
  | .unreachable reason => .ok (.refused reason)
  | .breakdown breakdown => .error (.breakdown breakdown)
  | .interruption => .error .interruption

theorem send_comes (server : Server) (host : LooseText) (body : Json) (timeout : Int) (verify : Bool) :
    (send server host body timeout verify).Comes (answered (server (post host body timeout verify)))
      [post host body timeout verify] := by
  unfold send
  refine (Run.comes_note _).then ((Run.comes_request (post host body timeout verify)).bind ?_)
  cases server (post host body timeout verify) with
  | response status text =>
    by_cases accepted : status = 200 ∨ status = 201
    · simp only [answered, if_pos accepted]
      exact Run.comes_pure _
    · simp only [answered, if_neg accepted]
      exact (Run.comes_note _).then (Run.comes_pure _)
  | unreachable reason => exact (Run.comes_note _).then (Run.comes_pure _)
  | breakdown breakdown => exact Run.comes_throw _
  | interruption => exact Run.comes_throw _

end Upload

namespace Release
variable {world : World} {server : Server} {settings : Settings} {dryRun : Bool}

/-- The one request of a release. -/
def request (settings : Settings) (located : Sources.Located) : Post :=
  Upload.post settings.apiHost
    (Upload.document settings.apiKey settings.environment settings.build (Payload.encode located.tree).text)
    settings.timeout (!settings.skipVerification)

def summaryOf (located : Sources.Located) : ReleaseSummary := summarize located (Payload.encode located.tree)

/-- What becomes of a release whose tree is ready: the upload decides, or that it is a dry run. -/
def delivered (server : Server) (settings : Settings) (dryRun : Bool) (located : Sources.Located) :
    Except Abort ReleaseOutcome :=
  if dryRun then .ok (.rehearsed (summaryOf located))
  else (Upload.answered (server (request settings located))).map fun
    | .accepted => .uploaded (summaryOf located)
    | .refused reason => .failed (.uploadFailed reason) (some (summaryOf located))

theorem deliver_comes (located : Sources.Located) :
    (deliver server settings dryRun located).Comes (delivered server settings dryRun located)
      (if dryRun then [] else [request settings located]) := by
  unfold deliver delivered
  refine (Run.comes_note _).then ?_
  cases dryRun with
  | true => exact (Run.comes_note _).then (Run.comes_pure _)
  | false =>
    have sent := Upload.send_comes server settings.apiHost
      (Upload.document settings.apiKey settings.environment settings.build (Payload.encode located.tree).text)
      settings.timeout (!settings.skipVerification)
    simp only [Bool.false_eq_true, if_false]
    change Run.Comes _ (Except.map _ (Upload.answered (server (request settings located)))) [request settings located]
    change Run.Comes _ (Upload.answered (server (request settings located))) [request settings located] at sent
    cases answer : Upload.answered (server (request settings located)) with
    | error abort =>
      rw [answer] at sent
      exact sent.bind_error
    | ok outcome =>
      rw [answer] at sent
      cases outcome with
      | accepted => exact sent.bind ((Run.comes_note _).then (Run.comes_pure _))
      | refused reason => exact sent.bind (Run.comes_pure _)

/-! ## The whole release -/

/-- The settings that a release goes by: those that are settled, with both paths made absolute. -/
def prepared (world : World) (config : Json) : Except Breakdown Settings := do
  let (given, _) ← Settings.settle world.workingDirectory config
  resolvePaths world given

/-- A release that gets past parsing: its paths can be resolved, nothing stands
in its way, and the rename log gives a tree. -/
structure Parsed (world : World) (config : Json) (dryRun : Bool) (settings : Settings) (tree : NameTree) : Prop where
  resolved : prepared world config = .ok settings
  clear : obstacle? world dryRun settings = none
  parsed : (RenameLog.read world.disk settings.renameLog).tree = .ok (some tree)

/-- What a release returns, once its settings are known and it came to an outcome. -/
def resultOf (settings : Settings) (outcome : ReleaseOutcome) : ReleaseResult :=
  ⟨settings.renameLog, settings.projectDirectory, settings.environment, settings.build, outcome⟩

section
variable {config : Json}

theorem run_comes_of_breakdown {breakdown : Breakdown} (refused : prepared world config = .error breakdown) :
    (run world server config dryRun).Comes (.error (.breakdown breakdown)) [] := by
  unfold run
  unfold prepared at refused
  refine (Run.comes_note _).then ?_
  cases settled : Settings.settle world.workingDirectory config with
  | error fault =>
    rw [settled] at refused
    cases refused
    exact (Run.comes_throw _).bind_error
  | ok given =>
    rw [settled] at refused
    refine (Run.comes_pure given).then ((Run.comes_note _).then ?_)
    rw [show resolvePaths world given.1 = .error breakdown from refused]
    exact (Run.comes_throw _).bind_error

theorem run_comes {outcome : Except Abort ReleaseOutcome} {posts : List Post}
    (resolved : prepared world config = .ok settings)
    (performed : (perform world server settings dryRun).Comes outcome posts) :
    (run world server config dryRun).Comes (outcome.map (resultOf settings)) posts := by
  unfold run
  unfold prepared at resolved
  refine (Run.comes_note _).then ?_
  cases settled : Settings.settle world.workingDirectory config with
  | error fault =>
    rw [settled] at resolved
    cases resolved
  | ok given =>
    rw [settled] at resolved
    refine (Run.comes_pure given).then ((Run.comes_note _).then ?_)
    rw [show resolvePaths world given.1 = .ok settings from resolved]
    refine (Run.comes_pure settings).then ?_
    cases outcome with
    | error abort => exact performed.bind_error
    | ok outcome =>
      rw [← List.append_nil posts]
      exact performed.bind (Run.comes_pure _)

end

/-! ## Before the upload -/

theorem perform_comes_of_obstacle {problem : ReleaseProblem} (blocked : obstacle? world dryRun settings = some problem) :
    (perform world server settings dryRun).Comes (.ok (.failed problem none)) [] := by
  unfold perform
  rw [blocked]
  exact (Run.comes_note _).then (Run.comes_pure _)

/-- What an attempt to read a rename log leaves a release with: a tree, a problem, or its end. -/
def readOutcome (path : LooseText) : Except RenameLogFault (Option NameTree) → Except Abort (Except ReleaseProblem NameTree)
  | .ok (some tree) => .ok (.ok tree)
  | .ok none => .ok (.error (.unsupportedFormat path))
  | .error fault =>
    match fault.breakdown? with
    | some breakdown => .error (.breakdown breakdown)
    | none => .ok (.error (.unreadableLog fault))

theorem readTree_comes (path : LooseText) :
    (readTree world path).Comes (readOutcome path (RenameLog.read world.disk path).tree) [] := by
  unfold readTree
  refine (Run.comes_note _).then ?_
  cases (RenameLog.read world.disk path).tree with
  | ok tree =>
    cases tree with
    | some tree => exact Run.comes_pure _
    | none => exact Run.comes_pure _
  | error fault =>
    unfold readOutcome
    dsimp only
    cases fault.breakdown? with
    | some breakdown => exact Run.comes_throw _
    | none => exact Run.comes_pure _

section
variable (clear : obstacle? world dryRun settings = none)
include clear

theorem perform_comes_of_problem {problem : ReleaseProblem}
    (unread : readOutcome settings.renameLog (RenameLog.read world.disk settings.renameLog).tree = .ok (.error problem)) :
    (perform world server settings dryRun).Comes (.ok (.failed problem none)) [] := by
  unfold perform
  rw [clear]
  exact (unread ▸ readTree_comes settings.renameLog).then ((Run.comes_note _).then (Run.comes_pure _))

theorem perform_comes_of_abort {abort : Abort}
    (ended : readOutcome settings.renameLog (RenameLog.read world.disk settings.renameLog).tree = .error abort) :
    (perform world server settings dryRun).Comes (.error abort) [] := by
  unfold perform
  rw [clear]
  exact (ended ▸ readTree_comes settings.renameLog).bind_error

section
variable {tree : NameTree} (parsed : (RenameLog.read world.disk settings.renameLog).tree = .ok (some tree))
include parsed

theorem perform_comes_of_fault {fault : DiskFault}
    (lost : Sources.locate world.disk settings.projectDirectory.systemPath tree .tree = .error fault) :
    (perform world server settings dryRun).Comes (.error (.breakdown (.badValue fault.message))) [] := by
  have read := @readTree_comes world settings.renameLog
  rw [parsed] at read
  unfold perform
  rw [clear]
  refine read.then ?_
  dsimp only
  rw [lost]
  exact (Run.comes_throw _).bind_error

theorem perform_comes_of_located {located : Sources.Located}
    (found : Sources.locate world.disk settings.projectDirectory.systemPath tree .tree = .ok located) :
    (perform world server settings dryRun).Comes (delivered server settings dryRun located)
      (if dryRun then [] else [request settings located]) := by
  have read := @readTree_comes world settings.renameLog
  rw [parsed] at read
  unfold perform
  rw [clear]
  refine read.then ?_
  dsimp only
  rw [found]
  exact (Run.comes_pure located).then ((Run.comes_note _).then (deliver_comes located))

end

end

end Release

end ClearNames

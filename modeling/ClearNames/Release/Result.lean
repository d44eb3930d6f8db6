import ClearNames.Json.Basic
import ClearNames.RenameLog.Fault

/-! What a release came to. -/

set_option autoImplicit false

namespace ClearNames

inductive ReleaseProblem where
  | renameLogNotFound (path : LooseText)
  | invalidProjectDirectory (path : LooseText)
  | missingSettings (keys : List String)
  | unsupportedFormat (path : LooseText)
  | unreadableLog (fault : RenameLogFault)
  | uploadFailed (reason : LooseText)
  deriving DecidableEq, Repr

def ReleaseProblem.message : ReleaseProblem → LooseText
  | .renameLogNotFound path => "Rename log not found: " ++ path
  | .invalidProjectDirectory path => "Invalid project directory: " ++ path
  | .missingSettings keys => "Missing required release settings: " ++ ", ".intercalate keys
  | .unsupportedFormat path => "Unsupported rename log format: " ++ path
  | .unreadableLog fault => "Failed to build deobfuscation map: " ++ fault.message
  | .uploadFailed reason => "Upload failed: " ++ reason

structure ReleaseSummary where
  packages : Nat
  classes : Nat
  methods : Nat
  located : Nat
  payloadSize : Nat
  deriving DecidableEq, Repr

def ReleaseSummary.fields (summary : ReleaseSummary) : List (LooseText × Json) := [
  ("packages", .int summary.packages),
  ("classes", .int summary.classes),
  ("methods", .int summary.methods),
  ("located", .int summary.located),
  ("payload_bytes", .int summary.payloadSize)]

inductive ReleaseOutcome where
  /-- The summary is there once the name tree was ready. -/
  | failed (problem : ReleaseProblem) (summary : Option ReleaseSummary)
  | rehearsed (summary : ReleaseSummary)
  | uploaded (summary : ReleaseSummary)
  deriving DecidableEq, Repr

namespace ReleaseOutcome

def isSuccess : ReleaseOutcome → Bool
  | .failed _ _ => false
  | .rehearsed _ | .uploaded _ => true

def error : ReleaseOutcome → LooseText
  | .failed problem _ => problem.message
  | .rehearsed _ | .uploaded _ => ""

def isRehearsal : ReleaseOutcome → Bool
  | .rehearsed _ => true
  | .failed _ _ | .uploaded _ => false

def isUploaded : ReleaseOutcome → Bool
  | .uploaded _ => true
  | .failed _ _ | .rehearsed _ => false

def summary? : ReleaseOutcome → Option ReleaseSummary
  | .failed _ summary => summary
  | .rehearsed summary | .uploaded summary => some summary

end ReleaseOutcome

structure ReleaseResult where
  renameLog : LooseText
  projectDirectory : LooseText
  environment : LooseText
  build : LooseText
  outcome : ReleaseOutcome
  deriving DecidableEq, Repr

namespace ReleaseResult

def summaryFields (result : ReleaseResult) : List (LooseText × Json) :=
  match result.outcome.summary? with
  | some summary => summary.fields
  | none => []

def document (result : ReleaseResult) : Json := .object [
  ("ok", .bool result.outcome.isSuccess),
  ("error", .ofLoose result.outcome.error),
  ("renamelog", .ofLoose result.renameLog),
  ("project_dir", .ofLoose result.projectDirectory),
  ("environment", .ofLoose result.environment),
  ("build", .ofLoose result.build),
  ("dry_run", .bool result.outcome.isRehearsal),
  ("uploaded", .bool result.outcome.isUploaded),
  ("summary", .object result.summaryFields)]

end ReleaseResult

end ClearNames

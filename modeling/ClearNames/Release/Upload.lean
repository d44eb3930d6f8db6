import ClearNames.Breakdown
import ClearNames.Journal.Record
import ClearNames.Json.Basic

/-! Handing a document to the server.

One request is made for each upload. A reply of status 200 or 201 accepts it;
every other status and a request that could not be made refuse it.
-/

set_option autoImplicit false

namespace ClearNames

structure Post where
  url : LooseText
  body : Json
  headers : List (String × String)
  timeout : Int
  verify : Bool
  deriving Repr

inductive ServerReply where
  | response (status : Int) (text : String)
  /-- The request could not be made or was not answered. -/
  | unreachable (reason : LooseText)
  | breakdown (breakdown : Breakdown)
  | interruption
  deriving Repr

abbrev Server := Post → ServerReply

inductive Abort where
  | breakdown (breakdown : Breakdown)
  | interruption
  deriving DecidableEq, Repr

structure Trace where
  records : List Record
  posts : List Post
  deriving Repr

/-- A part of a run; what it wrote and requested stays when it ends early. -/
abbrev Run (α : Type) := ExceptT Abort (StateM Trace) α

namespace Run

def note (records : List Record) : Run Unit :=
  modify fun trace => { trace with records := trace.records ++ records }

def outcome {α : Type} (run : Run α) : Except Abort α × Trace :=
  (ExceptT.run run |>.run ⟨[], []⟩ : Id _).run

end Run

inductive UploadOutcome where
  | accepted
  | refused (reason : LooseText)
  deriving DecidableEq, Repr

namespace Upload

def userAgent : String := "Deobfuscator4J-Client/1.0.0"

def endpoint : String := "/api/1.0/deobfuscation.json"

def standardTimeout : Int := 60

def url (host : LooseText) : LooseText := host.withoutEndSlashes ++ endpoint

def document (apiKey environment build : LooseText) (nameTree : String) : Json := .object [
  ("api_key", .ofLoose apiKey),
  ("environment", .ofLoose environment),
  ("build", .ofLoose build),
  ("namespace", .string nameTree)]

def post (host : LooseText) (body : Json) (timeout : Int) (verify : Bool) : Post :=
  ⟨url host, body, [("User-Agent", userAgent)], timeout, verify⟩

def refusal (status : Int) (text : String) : String :=
  "Server responded with HTTP " ++ toString status ++ ": " ++ String.ofList (text.toList.take 200)

def send (server : Server) (host : LooseText) (body : Json) (timeout : Int) (verify : Bool) :
    Run UploadOutcome := do
  Run.note [.of .debug .upload ("Uploading deobfuscation data to " ++ url host)]
  let request := post host body timeout verify
  modify fun trace => { trace with posts := trace.posts ++ [request] }
  match server request with
  | .response status text =>
    if status = 200 ∨ status = 201 then return .accepted
    Run.note [.of .error .upload (refusal status text)]
    return .refused (refusal status text)
  | .unreachable reason =>
    Run.note [.of .error .upload ("Upload to " ++ url host ++ " failed: " ++ reason)]
    return .refused reason
  | .breakdown breakdown => throw (.breakdown breakdown)
  | .interruption => throw .interruption

end Upload

end ClearNames

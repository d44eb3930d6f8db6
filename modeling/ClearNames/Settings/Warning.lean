import ClearNames.Breakdown
import ClearNames.Settings.Basic

/-! What can be wrong with given settings, and what is said about it. -/

set_option autoImplicit false

namespace ClearNames

inductive SettingProblem where
  /-- The settings as a whole are no object. -/
  | notAnObject (kind : String)
  | wrongKind (key : LooseText) (expected kind : String)
  | notPositive (key : LooseText) (value : Int)
  | badHost (host : LooseText)
  deriving DecidableEq, Repr

def SettingProblem.breakdown? : SettingProblem → Option Breakdown
  | .notPositive _ value => if (Text.decimal? value).isNone then some .tooManyDigits else none
  | _ => none

def SettingProblem.message : SettingProblem → LooseText
  | .notAnObject kind => "Invalid config type: expected dict, received " ++ kind ++ "."
  | .wrongKind key expected kind =>
    "Invalid field '" ++ key ++ "': expected " ++ expected ++ ", received " ++ kind ++ "."
  | .notPositive key value =>
    "Invalid field '" ++ key ++ "': must be positive, received " ++ toString value ++ "."
  | .badHost host => "Invalid api_host '" ++ host ++ "': must start with 'http://' or 'https://'."

inductive SettingWarning where
  | replaced (problem : SettingProblem)
  | numberAsBool (key : LooseText) (number : String)
  | textAsBool (key : LooseText) (text : String) (value : Bool)
  | textAsInt (key : LooseText) (text : String) (value : Int)
  deriving DecidableEq, Repr

def SettingWarning.message : SettingWarning → LooseText
  | .replaced (.notAnObject kind) => (SettingProblem.notAnObject kind).message ++ " Using defaults."
  | .replaced problem => problem.message ++ " Using fallback."
  | .numberAsBool key number => "Field '" ++ key ++ "' converted from number " ++ number ++ " to bool."
  | .textAsBool key text value =>
    "Field '" ++ key ++ "' converted from '" ++ text ++ "' to " ++ (if value then "True" else "False") ++ "."
  | .textAsInt key text value =>
    "Field '" ++ key ++ "' converted from '" ++ text ++ "' to " ++ toString value ++ "."

end ClearNames

import ClearNames.Proofs.Steps
import ClearNames.RenameLog.Basic

/-! Once a rename log is opened, the disk is at no fault.

Each step of a reading either speaks of what the log says or grows the tree, so
that a fault of the disk stems from the opening alone.
-/

set_option autoImplicit false

namespace ClearNames

namespace Reading
variable {α β : Type} {allowed : RenameLogFault → Prop}

def FailsBy (allowed : RenameLogFault → Prop) (step : Reading α) : Prop :=
  ∀ state fault, (step.on state).1 = .error fault → allowed fault

theorem FailsBy.pure (value : α) : (Pure.pure value : Reading α).FailsBy allowed := fun _ _ => nofun

theorem FailsBy.get : (MonadState.get : Reading ReadingState).FailsBy allowed := fun _ _ => nofun

theorem FailsBy.note (record : Record) : (Reading.note record).FailsBy allowed := fun _ _ => nofun

theorem FailsBy.throw {fault : RenameLogFault} (fits : allowed fault) :
    (MonadExcept.throw fault : Reading α).FailsBy allowed := by
  intro state other failed
  cases failed
  exact fits

theorem FailsBy.bind {step : Reading α} {next : α → Reading β} (first : step.FailsBy allowed)
    (rest : ∀ value, (next value).FailsBy allowed) : (step >>= next).FailsBy allowed := by
  intro state fault failed
  rcases ran : step.on state with ⟨cause | value, later⟩
  · rw [on_bind_of_error ran] at failed
    cases failed
    exact first state fault (congrArg Prod.fst ran)
  · rw [on_bind_of_ok ran] at failed
    exact rest value later fault failed

theorem FailsBy.grow {step : Growth α} (fits : ∀ fault, allowed (.naming fault)) : (grow step).FailsBy allowed := by
  intro state fault failed
  rw [on_grow] at failed
  rcases grown : step.on state.tree with ⟨cause | value, tree⟩ <;> rw [grown] at failed <;> cases failed
  exact fits cause

theorem FailsBy.foldlM {items : List α} {round : β → α → Reading β}
    (each : ∀ value item, (round value item).FailsBy allowed) (start : β) :
    (items.foldlM round start).FailsBy allowed := by
  induction items generalizing start with
  | nil => exact .pure start
  | cons item rest ih =>
    rw [List.foldlM_cons]
    exact (each start item).bind fun value => ih value

end Reading

/-- A fault of the log, not of the disk that holds it. -/
def RenameLogFault.OfLog (fault : RenameLogFault) : Prop := ∀ cause, fault ≠ .disk cause

open Reading RenameLogFault

namespace Mapping

theorem readMethod_failsBy (progress : Progress) (owner : ClassId) (signature obfuscation : String) :
    (readMethod progress owner signature obfuscation).FailsBy OfLog := by
  unfold readMethod
  refine .bind (.grow nofun) fun outcome => ?_
  cases outcome with
  | registered id => exact .pure _
  | duplicate holder => exact .bind .get fun _ => .bind (.note _) fun _ => .pure _

theorem readLine_failsBy (progress : Progress) (number : Nat) (line : List Char) :
    (readLine progress number line).FailsBy OfLog := by
  unfold readLine
  split
  · exact .pure _
  · dsimp only
    split
    · exact .throw nofun
    · exact .bind (.grow nofun) fun _ => .pure _
    · exact .throw nofun
    · exact .pure _
    · exact .throw nofun
    · exact .bind .get fun _ => .bind (.note _) fun _ => .pure _
    · exact readMethod_failsBy _ _ _ _

theorem readFrom_failsBy (progress : Progress) (number : Nat) (lines : List (List Char)) :
    (readFrom progress number lines).FailsBy OfLog := by
  induction lines generalizing progress number with
  | nil => exact .pure _
  | cons line rest ih => exact .bind (readLine_failsBy _ _ _) fun _ => ih _ _

theorem readBytes_failsBy (path : LooseText) (bytes : ByteArray) : (readBytes path bytes).FailsBy OfLog := by
  unfold readBytes
  dsimp only
  split
  · exact .bind (readFrom_failsBy _ _ _) fun _ => .note _
  · split
    · exact .bind (readFrom_failsBy _ _ _) fun _ => .throw nofun
    · exact .throw nofun

end Mapping

namespace YGuardLog

theorem required_failsBy (element : Xml.Element) (name : String) : (required element name).FailsBy OfLog := by
  unfold required
  split
  · split
    · exact .throw nofun
    · exact .pure _
  · exact .throw nofun

theorem readMethod_failsBy (element : Xml.Element) : (readMethod element).FailsBy OfLog := by
  unfold readMethod
  refine .bind (required_failsBy _ _) fun name => .bind (required_failsBy _ _) fun obfuscation => ?_
  refine .bind (required_failsBy _ _) fun className => .bind (.grow nofun) fun owner => ?_
  refine .bind (.grow nofun) fun outcome => ?_
  cases outcome with
  | registered id => exact .pure _
  | duplicate holder => exact .bind .get fun _ => .bind (.note _) fun _ => .throw nofun

theorem readEntry_failsBy (counts : Counts) (element : Xml.Element) : (readEntry counts element).FailsBy OfLog := by
  have named := required_failsBy element
  unfold readEntry
  split
  · exact .bind (.bind (named _) fun _ => .bind (named _) fun _ => .bind (.grow nofun) fun _ => .pure _) fun _ => .pure _
  · refine .bind (.bind (named _) fun _ => .bind (named _) fun _ => .bind .get fun _ => ?_) fun _ => .pure _
    exact .bind (.grow nofun) fun _ => .pure _
  · exact .bind (readMethod_failsBy element) fun _ => .pure _
  · exact .pure _

theorem readExposed_failsBy (counts : Counts) (element : Xml.Element) :
    (readExposed counts element).FailsBy OfLog :=
  .bind (required_failsBy _ _) fun _ => .bind (.grow nofun) fun _ => .pure _

theorem readBytes_failsBy (path : LooseText) (bytes : ByteArray) : (readBytes path bytes).FailsBy OfLog := by
  unfold readBytes
  split
  · refine .bind (.foldlM readEntry_failsBy _) fun counts => ?_
    exact .bind (.foldlM readExposed_failsBy _) fun _ => .note _
  · exact .throw nofun
  · exact .throw nofun

end YGuardLog

namespace RenameLog

/-- A log that can be opened is read to a tree or to a fault of the log. -/
theorem ofLog_of_read {disk : Disk} {path : LooseText} {bytes : ByteArray} {fault : RenameLogFault}
    (given : disk.read path.systemPath = .ok bytes) (failed : (read disk path).tree = .error fault) : fault.OfLog := by
  unfold read at failed
  split at failed
  · cases failed
  · next format _ =>
    have opened : (readFile disk format path).FailsBy OfLog := by
      unfold readFile
      refine .bind (.note _) fun _ => ?_
      rw [given]
      cases format with
      | mapping => exact Mapping.readBytes_failsBy path bytes
      | yguard => exact YGuardLog.readBytes_failsBy path bytes
    rw [LogAttempt.tree, Reading.outcome_eq] at failed
    cases ran : ((readFile disk format path).on ⟨.empty, []⟩).1 with
    | ok _ =>
      rw [ran] at failed
      cases failed
    | error cause =>
      rw [ran] at failed
      cases failed
      exact opened _ _ ran

end RenameLog

end ClearNames

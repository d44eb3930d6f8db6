import ClearNames.Disk.Basic
import ClearNames.Journal.Layout
import ClearNames.Journal.TimePattern

/-! Where log lines end up: on the console, or in a file that is rolled over.

A file is rolled over before a line that would bring it to its size limit. Its
earlier contents move to the same name with a number, the latest with the
lowest number.
-/

set_option autoImplicit false

namespace ClearNames

structure LogFile where
  path : String
  /-- The size in bytes that the file stays below; zero or less for none. -/
  limit : Int
  kept : Int
  deriving DecidableEq, Repr

inductive Destination where
  | console
  | file (file : LogFile)
  deriving DecidableEq, Repr

structure Sink where
  destination : Destination
  severity : Severity
  layout : Layout
  timePattern : String
  deriving Repr

namespace LogFile

def earlier (file : LogFile) (number : Nat) : String := file.path ++ "." ++ toString number

/-- Whether a line is to go into a new file: its size is counted in characters. -/
def isFull (file : LogFile) (disk : Disk) (line : LooseText) : Bool :=
  decide (0 < file.limit) && decide (file.limit ≤ disk.size file.path + line.points.length)

/-- Move what is at one path to another, where there is something; it cannot be
moved to the place of a directory. What is left, and whether all went well. -/
def moveAside (disk : Disk) (path target : String) : Disk × Bool :=
  if disk.pathExists path then
    match disk.rename? path target with
    | some disk => (disk, true)
    | none => (disk, false)
  else (disk, true)

def shift (file : LogFile) (disk : Disk) : Nat → Disk × Bool
  | 0 => (disk, true)
  | number + 1 =>
    match moveAside disk (file.earlier (number + 1)) (file.earlier (number + 2)) with
    | (disk, true) => file.shift disk number
    | (disk, false) => (disk, false)

def rollOver (file : LogFile) (disk : Disk) : Disk × Bool :=
  if 0 < file.kept then
    match file.shift disk (file.kept.toNat - 1) with
    | (disk, true) => moveAside disk file.path (file.earlier 1)
    | (disk, false) => (disk, false)
  else (disk, true)

/-- Add a line, to a new file if it is time for one. A line is lost where no new
file can be begun, and where it has no encoding. -/
def write (file : LogFile) (disk : Disk) (line : LooseText) : Disk :=
  match if file.isFull disk line then file.rollOver disk else (disk, true), line.encoded with
  | (disk, true), .ok text =>
    match disk.append file.path text.toUTF8 with
    | .ok written => written
    | .error _ => disk
  | (disk, _), _ => disk

def create (file : LogFile) (disk : Disk) : Except DiskFault Disk := disk.append file.path ByteArray.empty

end LogFile

namespace Sink

def line? (sink : Sink) (time : Moment) (record : Record) : Option LooseText :=
  if sink.severity.rank ≤ record.severity.rank then sink.layout.line? (time.text? sink.timePattern) record
  else none

def take (sink : Sink) (time : Moment) (disk : Disk) (record : Record) : Disk × String :=
  match sink.line? time record, sink.destination with
  | none, _ => (disk, "")
  | some line, .console => (disk, line.escaped)
  | some line, .file file => (file.write disk line, "")

end Sink

end ClearNames

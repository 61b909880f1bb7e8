import Compositor.Decimal.Layout
import Compositor.File.System

/-!
# Programs

Programs that can be started, what they put out, and how they end.
-/

namespace Compositor

inductive ProgramEnd where
  | exited (code : Nat)
  | killed (signal : Nat)
  | endless
deriving DecidableEq, Repr

structure ProgramRun where
  files : FileSystem
  stdout : List UInt8
  stderr : List UInt8
  ending : ProgramEnd

abbrev Program := List String → FileSystem → ProgramRun

structure Programs where
  placed : Location → Option Program
  named : String → Option Program

def signalName? : Nat → Option String
  | 1 => some "SIGHUP"
  | 2 => some "SIGINT"
  | 3 => some "SIGQUIT"
  | 4 => some "SIGILL"
  | 5 => some "SIGTRAP"
  | 6 => some "SIGABRT"
  | 7 => some "SIGBUS"
  | 8 => some "SIGFPE"
  | 9 => some "SIGKILL"
  | 10 => some "SIGUSR1"
  | 11 => some "SIGSEGV"
  | 12 => some "SIGUSR2"
  | 13 => some "SIGPIPE"
  | 14 => some "SIGALRM"
  | 15 => some "SIGTERM"
  | 16 => some "SIGSTKFLT"
  | 17 => some "SIGCHLD"
  | 18 => some "SIGCONT"
  | 19 => some "SIGSTOP"
  | 20 => some "SIGTSTP"
  | 21 => some "SIGTTIN"
  | 22 => some "SIGTTOU"
  | 23 => some "SIGURG"
  | 24 => some "SIGXCPU"
  | 25 => some "SIGXFSZ"
  | 26 => some "SIGVTALRM"
  | 27 => some "SIGPROF"
  | 28 => some "SIGWINCH"
  | 29 => some "SIGIO"
  | 30 => some "SIGPWR"
  | 31 => some "SIGSYS"
  | _ => none

def ProgramEnd.text : ProgramEnd → String
  | .exited code => "exit status: " ++ Decimal.whole code
  | .killed signal =>
    let name := match signalName? signal with
      | some name => " (" ++ name ++ ")"
      | none => ""
    "signal: " ++ Decimal.whole signal ++ name
  | .endless => "running"

inductive StartError where
  | zeroByte
  | file (error : FileError)
  | argumentTooLong
deriving DecidableEq, Repr

def StartError.message : StartError → String
  | .zeroByte => "nul byte found in provided data"
  | .file error => error.message
  | .argumentTooLong => "Argument list too long (os error 7)"

/-- The length from which on an argument is too long, in bytes. -/
def argumentLimit : Nat := 131072

def isTooLong (argument : String) : Bool := decide (argumentLimit ≤ argument.utf8ByteSize)

def hasZeroByte (text : String) : Bool := text.toList.contains '\x00'

/-- The program that a name or a path stands for. -/
def Programs.find (programs : Programs) (files : FileSystem) (name : String) :
    Except FileError Program :=
  if name.toList.contains '/' then do
    let location ← files.locate name
    match ← files.stat name with
    | .directory => throw .permissionDenied
    | .file _ =>
      match programs.placed location with
      | some program => return program
      | none => throw .permissionDenied
  else
    match programs.named name with
    | some program => .ok program
    | none => .error .notFound

def Programs.start (programs : Programs) (files : FileSystem) (name : String)
    (arguments : List String) : Except StartError ProgramRun :=
  if hasZeroByte name || arguments.any hasZeroByte then .error .zeroByte
  else
    match programs.find files name with
    | .ok program =>
      if arguments.any isTooLong then .error .argumentTooLong
      else .ok (program arguments files)
    | .error error => .error (.file error)

end Compositor

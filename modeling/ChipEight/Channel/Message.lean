import ChipEight.Channel.Pipe
import ChipEight.Machine.SaveState
import ChipEight.Text.Quoted

/-!
# Messages

* `Cause`          why a session, or a single operation, broke off;
* `SessionFault`   a cause as it is handed to the host;
* `Escape`         what an operation broke off with: a cause, or one already made out for the host;
* `Message`        what the ends of a session tell each other;
* `Message.description`  a message as the log shows it.
-/

namespace ChipEight

inductive Cause where
  | fault (f : Fault)
  | disconnected
  | unpackable (e : PackError)
  | ticketSpent
  /-- text that cannot be written down, in the words of who was to do it -/
  | unencodable (text : String)
  | notCallable (what : String)
  | unloadable (text : String)
  deriving DecidableEq, Repr

namespace Cause

def message : Cause → String
  | fault f => f.message
  | disconnected => ChannelError.sendClosed.message
  | unpackable e => e.message
  | ticketSpent => "Future in unexpected state"
  | unencodable text => text
  | notCallable what => "Callback " ++ what ++ " is not Callable"
  | unloadable text => text

end Cause

structure SessionFault where
  cause : Cause
  deriving DecidableEq, Repr

namespace SessionFault

def message (f : SessionFault) : String := f.cause.message

def description (f : SessionFault) : String := "EmulatorError(" ++ Text.quoted f.message ++ ")"

end SessionFault

inductive Escape where
  | cause (c : Cause)
  | fault (f : SessionFault)
  deriving DecidableEq, Repr

/-- what the host is told about an escape -/
def Escape.toFault : Escape → SessionFault
  | .cause c => ⟨c⟩
  | .fault f => f

inductive Message where
  | shutdown
  | pause
  | unpause
  | keyReleased (key : Key)
  | save (path : String)
  /-- asks for a saved state, to be left under a ticket -/
  | snapshot (ticket : Nat)
  | draw
  | fault (f : SessionFault)
  deriving DecidableEq, Repr

namespace Message

def description : Message → String
  | shutdown => "Shutdown()"
  | pause => "Pause()"
  | unpause => "Unpause()"
  | keyReleased k => "KeyReleased(key=" ++ k.description ++ ")"
  | save path => "Save(path=PosixPath(" ++ Text.quoted path ++ "))"
  | snapshot _ => "Snapshot(future=<Future>)"
  | draw => "Draw()"
  | fault f => "Fault(error=" ++ f.description ++ ")"

end Message

end ChipEight

import ChipEight.Machine.Basic

/-!
# Saved states

A saved state is 4412 bytes, words with the high byte first:

* `0`      the sixteen registers;
* `16`     the index;
* `18`     the sixteen stack words;
* `50`     the program counter;
* `52`     the stack pointer, the delay timer and the sound timer;
* `55`     memory;
* `4151`   the screen, row by row, the leftmost pixel of eight in the highest bit;
* `4407`   the keypad, key 0 in the highest bit;
* `4409`   whether a released key is pending, and which;
* `4411`   the register that waits for a key, `0xFF` if none does.

`State.encode` writes it, unless a counter has outgrown its place; `State.decode` reads it back,
or says what is wrong with it.
-/

namespace ChipEight

/-- a number that has no place in a saved state -/
inductive PackError where
  | word
  | byte
  deriving DecidableEq, Repr

def PackError.message : PackError → String
  | .word => "'H' format requires 0 <= number <= 65535"
  | .byte => "ubyte format requires 0 <= number <= 255"

inductive SaveError where
  | wrongSize (got : Nat)
  | stackPointer (sp : Nat)
  | pendingKey (key : Nat)
  | awaitRegister (register : Nat)
  deriving DecidableEq, Repr

namespace SaveState

def size : Nat := 4412

/-- the byte that says that no register waits -/
def notAwaiting : Nat := 0xFF

end SaveState

def SaveError.message : SaveError → String
  | wrongSize n => "Save state must be 4412 bytes, got " ++ toString n
  | stackPointer sp => "Stack pointer " ++ toString sp ++ " exceeds stack size 16"
  | pendingKey k => "Invalid pending key " ++ toString k
  | awaitRegister r => "Invalid await-key register " ++ toString r

namespace State

/-! ## writing -/

/-- the lowest `w` bytes of a number, the highest of them first -/
def bigEndian (w n : Nat) : List UInt8 :=
  (List.range w).map fun j => .ofNat (n / Nat.pow 256 (w - 1 - j))

def releasedBytes : Option Key → List UInt8
  | some k => [1, .ofNat k.val]
  | none => [0, 0]

def awaitingBytes : Option Register → List UInt8
  | some x => [.ofNat x.val]
  | none => [.ofNat SaveState.notAwaiting]

/-- the bytes of the state, numbers cut to their places -/
def image (s : State) : List UInt8 :=
  s.v.toList ++ bigEndian 2 s.i.toNat ++ s.stack.toList.flatMap (bigEndian 2) ++ bigEndian 2 s.pc
    ++ [.ofNat s.sp, s.delay, s.sound] ++ s.ram.toList
    ++ s.screen.toList.flatMap (fun row => bigEndian 8 row.toNat)
    ++ bigEndian 2 s.keypad.toNat ++ releasedBytes s.released ++ awaitingBytes s.awaiting

/-- the first number, in the order of the layout, that has outgrown its place -/
def misfit? (s : State) : Option PackError :=
  if s.stack.toList.all (· < 65536) && s.pc < 65536 then
    if s.sp < 256 then none else some .byte
  else some .word

def encode (s : State) : Except PackError (List UInt8) :=
  match s.misfit? with
  | some e => .error e
  | none => .ok s.image

/-! ## reading -/

def byteAt (bytes : Array UInt8) (k : Nat) : UInt8 := (bytes[k]?).getD 0

def numberAt (bytes : Array UInt8) (w k : Nat) : Nat :=
  (List.range w).foldl (fun n j => n * 256 + (byteAt bytes (k + j)).toNat) 0

def nibble? (n : Nat) : Option (Fin 16) := if h : n < 16 then some ⟨n, h⟩ else none

def readReleased (bytes : Array UInt8) : Except SaveError (Option Key) :=
  let key := (byteAt bytes 4410).toNat
  if byteAt bytes 4409 = 0 then .ok none
  else match nibble? key with
    | some k => .ok (some k)
    | none => .error (.pendingKey key)

def readAwaiting (bytes : Array UInt8) : Except SaveError (Option Register) :=
  let r := (byteAt bytes 4411).toNat
  if r = SaveState.notAwaiting then .ok none
  else match nibble? r with
    | some x => .ok (some x)
    | none => .error (.awaitRegister r)

/-- the state in bytes of the right number, before a register waits; the pending key was read -/
def ofImage (bytes : Array UInt8) (released : Option Key) : State where
  v := Vector.ofFn fun k => byteAt bytes k
  i := .ofNat (numberAt bytes 2 16)
  stack := Vector.ofFn fun k => numberAt bytes 2 (18 + 2 * k.val)
  pc := numberAt bytes 2 50
  sp := (byteAt bytes 52).toNat
  delay := byteAt bytes 53
  sound := byteAt bytes 54
  ram := Vector.ofFn fun k => byteAt bytes (55 + k.val)
  screen := Vector.ofFn fun y => .ofNat 64 (numberAt bytes 8 (4151 + 8 * y.val))
  keypad := .ofNat 16 (numberAt bytes 2 4407)
  released := released
  mode := .running
  awaiting := none

/-- the wait that was saved goes on -/
def waitingAgain (s : State) : Option Register → State
  | some x => s.waitFor x
  | none => s

def decodeArray (bytes : Array UInt8) : Except SaveError State :=
  let sp := (byteAt bytes 52).toNat
  if bytes.size ≠ SaveState.size then .error (.wrongSize bytes.size)
  else if sp > 16 then .error (.stackPointer sp)
  else do
    let released ← readReleased bytes
    let awaiting ← readAwaiting bytes
    return (ofImage bytes released).waitingAgain awaiting

def decode (bytes : List UInt8) : Except SaveError State := decodeArray bytes.toArray

end State

/-- a machine resumed from a saved state: running, with its own dice and without a trace -/
def Machine.restore (bytes : List UInt8) (dice : Dice) (tracing : Bool) :
    Except SaveError Machine :=
  (State.decode bytes).map fun s => .ofState s dice tracing

def Machine.snapshot (m : Machine) : Except PackError (List UInt8) := m.state.encode

end ChipEight

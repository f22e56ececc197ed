import BraneKernel.Lib.Utf8

namespace BraneKernel

def inputBufSize : ℕ := 1024

def maxLine : ℕ := 256

theorem inputBufSize_pos : 0 < inputBufSize := by decide

structure InputBuffer where
  buf : Bytes
  head : Fin inputBufSize
  tail : Fin inputBufSize
  count : ℕ
  size : buf.length = inputBufSize

namespace InputBuffer

def new : InputBuffer where
  buf := List.replicate inputBufSize 0
  head := ⟨0, inputBufSize_pos⟩
  tail := ⟨0, inputBufSize_pos⟩
  count := 0
  size := List.length_replicate

def after (i : Fin inputBufSize) : Fin inputBufSize :=
  ⟨(i + 1) % inputBufSize, Nat.mod_lt _ inputBufSize_pos⟩

variable (b : InputBuffer)

def push (byte : BitVec 8) : InputBuffer :=
  if b.count < inputBufSize then
    { buf := b.buf.set b.head byte
      head := after b.head
      tail := b.tail
      count := b.count + 1
      size := List.length_set.trans b.size }
  else b

def pop : Option (BitVec 8 × InputBuffer) :=
  if b.count = 0 then none
  else some (b.buf.getD b.tail 0, { b with tail := after b.tail, count := b.count - 1 })

def drain : ℕ → InputBuffer → InputBuffer
  | 0, b => b
  | fuel + 1, b =>
    match b.pop with
    | none => b
    | some (_, rest) => drain fuel rest

end InputBuffer

/-- The line being edited is the first `lineLen` bytes of `lineBuf`. -/
structure Tty where
  input : InputBuffer
  lineBuf : Bytes
  lineLen : ℕ
  lineReady : Bool
  size : lineBuf.length = maxLine
  fits : lineLen < maxLine

namespace Tty

theorem maxLine_pos : 0 < maxLine := by decide

def new : Tty where
  input := .new
  lineBuf := List.replicate maxLine 0
  lineLen := 0
  lineReady := false
  size := List.length_replicate
  fits := maxLine_pos

def isNewline (c : Char) : Bool := c == '\n' || c == '\r'

def isBackspace (c : Char) : Bool := c == '\x08' || c == '\x7f'

def toByte (c : Char) : BitVec 8 := BitVec.ofNat 8 c.toNat

variable (t : Tty)

def onChar (c : Char) : Tty :=
  if isNewline c then { t with lineReady := true, input := t.input.push 0x0A }
  else if isBackspace c then
    if t.lineLen > 0 then
      { t with lineLen := t.lineLen - 1, fits := Nat.lt_of_le_of_lt (Nat.sub_le _ _) t.fits }
    else t
  else if h : c.toNat < 128 ∧ t.lineLen < maxLine - 1 then
    { input := t.input.push (toByte c)
      lineBuf := t.lineBuf.set t.lineLen (toByte c)
      lineLen := t.lineLen + 1
      lineReady := t.lineReady
      size := List.length_set.trans t.size
      fits := Nat.add_lt_of_lt_sub h.2 }
  else t

def hasLine : Bool := t.lineReady

def readLine : List Char := (Utf8.fromUtf8 (t.lineBuf.take t.lineLen)).getD []

def clearLine : Tty :=
  { t with
    lineLen := 0
    lineReady := false
    input := t.input.drain t.input.count
    fits := maxLine_pos }

/-- One turn of the shell loop: under one lock a finished line is copied out and
cleared, and the copy is what the shell executes. -/
def shellTurn : Tty × Option (List Char) :=
  if t.hasLine then
    let line := Utf8.encode t.readLine
    let len := min line.length maxLine
    (t.clearLine, some ((Utf8.fromUtf8 (line.take len)).getD []))
  else (t, none)

end Tty

end BraneKernel

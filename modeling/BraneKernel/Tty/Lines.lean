import BraneKernel.Lib.Trace
import BraneKernel.Tty

namespace BraneKernel

structure Typing where
  current : List Char
  lines : List (List Char)
  deriving DecidableEq

def Typing.key (w : Typing) (c : Char) : Typing :=
  if Tty.isNewline c then ⟨[], w.lines ++ [w.current]⟩
  else if Tty.isBackspace c then ⟨w.current.dropLast, w.lines⟩
  else ⟨w.current ++ [c], w.lines⟩

namespace Tty

inductive Event
  | key (c : Char)
  | poll
  deriving DecidableEq

def Event.type (w : Typing) : Event → Typing
  | .key c => w.key c
  | .poll => w

def typed (es : List Event) : Typing := es.foldl Event.type ⟨[], []⟩

variable (s : Tty × List (List Char))

def next : Event → Tty × List (List Char)
  | .key c => (s.1.onChar c, s.2)
  | .poll => (s.1.shellTurn.1, s.2 ++ s.1.shellTurn.2.toList)

def Step (e : Event) (s' : Tty × List (List Char)) : Prop :=
  next s e = s'

/-- A key comes when no finished line waits for the shell. It is an ASCII
character, and there is room for it in the line. -/
def admits : Event → Prop
  | .key c => s.1.hasLine = false ∧ c.toNat < 128 ∧
      (isNewline c = false → isBackspace c = false → s.1.lineLen < maxLine - 1)
  | .poll => True

structure Shows (t : Tty) (text : List Char) : Prop where
  bytes : t.lineBuf.take t.lineLen = text.map toByte
  length : t.lineLen = text.length
  ascii : ∀ c ∈ text, c.toNat < 128

/-- The lines typed are those read and the one that waits, if there is one. -/
inductive Delivers : Tty × List (List Char) → Typing → Prop
  | editing {t : Tty} {reads : List (List Char)} {text : List Char} :
      Shows t text → t.hasLine = false → Delivers (t, reads) ⟨text, reads⟩
  | waiting {t : Tty} {reads : List (List Char)} {text : List Char} :
      Shows t text → t.hasLine = true → Delivers (t, reads) ⟨[], reads ++ [text]⟩

variable {t : Tty} {text : List Char} {c : Char}

theorem encode_ascii (h : ∀ c ∈ text, c.toNat < 128) : Utf8.encode text = text.map toByte := by
  induction text with
  | nil => rfl
  | cons c text ih =>
    have hc : c.toNat < 128 := h c List.mem_cons_self
    have hbyte : (toByte c).toNat = c.toNat := by
      rw [toByte, BitVec.toNat_ofNat]
      omega
    have hchar := Utf8.encodeChar_ofNat (b := toByte c) (by omega)
    rw [hbyte, Char.ofNat_toNat] at hchar
    rw [Utf8.encode_cons, hchar, ih fun d hd ↦ h d (List.mem_cons_of_mem _ hd)]
    rfl

theorem shellTurn_none (h : t.hasLine = false) : t.shellTurn = (t, none) := by
  rw [shellTurn, h]
  rfl

theorem shows_clearLine (t : Tty) : Shows t.clearLine [] where
  bytes := rfl
  length := rfl
  ascii := by simp

namespace Shows

theorem readLine_eq (h : Shows t text) : t.readLine = text := by
  rw [readLine, h.bytes, ← encode_ascii h.ascii, Utf8.fromUtf8_encode, Option.getD_some]

theorem shellTurn_eq (h : Shows t text) (hready : t.hasLine = true) :
    t.shellTurn = (t.clearLine, some text) := by
  have hlen : (Utf8.encode text).length ≤ maxLine := by
    rw [encode_ascii h.ascii, List.length_map, ← h.length]
    exact t.fits.le
  rw [shellTurn, if_pos hready, h.readLine_eq]
  dsimp only
  rw [Nat.min_eq_left hlen, List.take_length, Utf8.fromUtf8_encode, Option.getD_some]

theorem newline (h : Shows t text) (hc : isNewline c = true) :
    Shows (t.onChar c) text ∧ (t.onChar c).hasLine = true := by
  rw [onChar, if_pos hc]
  exact ⟨⟨h.bytes, h.length, h.ascii⟩, rfl⟩

theorem backspace (h : Shows t text) (hn : isNewline c = false) (hc : isBackspace c = true) :
    Shows (t.onChar c) text.dropLast ∧ (t.onChar c).hasLine = t.hasLine := by
  have hlen := h.length
  rw [onChar, hn, if_neg Bool.false_ne_true, if_pos hc]
  split_ifs with hpos
  · refine ⟨⟨?_, ?_, fun d hd ↦ h.ascii d (List.mem_of_mem_dropLast hd)⟩, rfl⟩
    · have hsize : t.lineLen ≤ t.lineBuf.length := t.size ▸ t.fits.le
      dsimp only
      rw [List.map_dropLast, ← h.bytes, List.dropLast_eq_take, List.take_take,
        List.length_take_of_le hsize, Nat.min_eq_left (Nat.sub_le _ _)]
    · rw [List.length_dropLast, ← hlen]
  · obtain rfl : text = [] := List.length_eq_zero_iff.mp (by omega)
    exact ⟨h, rfl⟩

theorem character (h : Shows t text) (hn : isNewline c = false) (hb : isBackspace c = false)
    (hascii : c.toNat < 128) (hroom : t.lineLen < maxLine - 1) :
    Shows (t.onChar c) (text ++ [c]) ∧ (t.onChar c).hasLine = t.hasLine := by
  rw [onChar, hn, if_neg Bool.false_ne_true, hb, if_neg Bool.false_ne_true,
    dif_pos ⟨hascii, hroom⟩]
  refine ⟨⟨?_, ?_, ?_⟩, rfl⟩
  · have hsize : t.lineLen < t.lineBuf.length := t.size ▸ t.fits
    dsimp only
    rw [List.take_add_one, List.take_set_of_le le_rfl, List.getElem?_set_self hsize, h.bytes,
      List.map_append]
    rfl
  · rw [List.length_append, ← h.length]
    rfl
  · intro d hd
    rcases List.mem_append.mp hd with hd | hd
    · exact h.ascii d hd
    · rwa [List.mem_singleton.mp hd]

end Shows

namespace Delivers

variable {s s' : Tty × List (List Char)} {w : Typing}

theorem key (h : Delivers s w) (hok : admits s (.key c)) : Delivers (next s (.key c)) (w.key c) := by
  obtain ⟨hready, hascii, hroom⟩ := hok
  cases h with
  | waiting _ hwait => exact absurd (hwait.symm.trans hready) (by decide)
  | @editing t reads text hshows _ =>
    cases hn : isNewline c with
    | true =>
      obtain ⟨hshows, hwait⟩ := hshows.newline hn
      rw [Typing.key, if_pos hn]
      exact .waiting hshows hwait
    | false =>
      cases hb : isBackspace c with
      | true =>
        obtain ⟨hshows, hsame⟩ := hshows.backspace hn hb
        rw [Typing.key, hn, if_neg Bool.false_ne_true, if_pos hb]
        exact .editing hshows (hsame.trans hready)
      | false =>
        obtain ⟨hshows, hsame⟩ := hshows.character hn hb hascii (hroom hn hb)
        rw [Typing.key, hn, if_neg Bool.false_ne_true, hb, if_neg Bool.false_ne_true]
        exact .editing hshows (hsame.trans hready)

theorem poll (h : Delivers s w) : Delivers (next s .poll) w := by
  cases h with
  | editing hshows hready =>
    rw [next, shellTurn_none hready]
    dsimp only [Option.toList]
    rw [List.append_nil]
    exact .editing hshows hready
  | waiting hshows hready =>
    rw [next, hshows.shellTurn_eq hready]
    exact .editing (shows_clearLine _) rfl

theorem step {e : Event} (h : Delivers s w) (hstep : Trace.Guarded admits Step s e s') :
    Delivers s' (e.type w) := by
  obtain ⟨hok, rfl⟩ := hstep
  cases e with
  | key c => exact h.key hok
  | poll => exact h.poll

end Delivers

/-- The lines typed are the lines read, then the one the next turn of the shell reads. -/
theorem reads_lines_typed {s : Tty × List (List Char)} {es : List Event}
    (h : Trace.Run (Trace.Guarded admits Step) (new, []) es s) :
    (typed es).lines = s.2 ++ s.1.shellTurn.2.toList := by
  have hdelivers : Delivers s (typed es) := by
    refine h.history (I := fun es s ↦ Delivers s (typed es)) ?_ ?_
    · exact .editing ⟨rfl, rfl, by simp⟩ rfl
    · intro es s e s' hs hstep
      rw [typed, List.foldl_append]
      exact hs.step hstep
  generalize typed es = w at hdelivers ⊢
  cases hdelivers with
  | editing _ hready =>
    rw [shellTurn_none hready]
    exact (List.append_nil _).symm
  | waiting hshows hready =>
    rw [hshows.shellTurn_eq hready]
    rfl

theorem reads_lines_typed_corrected : ∃ s,
    Trace.Run (Trace.Guarded admits Step) (new, []) [.key 'l', .key 'd', .key '\x7f', .key 's',
      .key '\n', .poll, .key 'c', .key '\r'] s ∧
    s.2 ++ s.1.shellTurn.2.toList = [['l', 's'], ['c']] := by
  obtain ⟨s, hrun⟩ : ∃ s, Trace.Run (Trace.Guarded admits Step) (new, []) [.key 'l', .key 'd',
      .key '\x7f', .key 's', .key '\n', .poll, .key 'c', .key '\r'] s := by
    have hkey : ∀ {s : Tty × List (List Char)} {c : Char}, s.1.hasLine = false → c.toNat < 128 →
        s.1.lineLen < maxLine - 1 → Trace.Guarded admits Step s (.key c) (next s (.key c)) :=
      fun hready hascii hroom ↦ ⟨⟨hready, hascii, fun _ _ ↦ hroom⟩, rfl⟩
    refine ⟨_, .cons (hkey ?_ ?_ ?_) (.cons (hkey ?_ ?_ ?_) (.cons (hkey ?_ ?_ ?_)
      (.cons (hkey ?_ ?_ ?_) (.cons (hkey ?_ ?_ ?_) (.cons ⟨trivial, rfl⟩
      (.cons (hkey ?_ ?_ ?_) (.cons (hkey ?_ ?_ ?_) .nil)))))))⟩
    all_goals decide +kernel
  exact ⟨s, hrun, (reads_lines_typed hrun).symm.trans (by decide)⟩

/-- Two lines typed before the shell looks are read as one. -/
theorem typed_ahead_lines_merged : ∃ s,
    Trace.Run Step (new, []) [.key 'a', .key '\n', .key 'b', .key '\n', .poll, .poll] s ∧
    (typed [.key 'a', .key '\n', .key 'b', .key '\n', .poll, .poll]).lines = [['a'], ['b']] ∧
    s.2 = [['a', 'b']] :=
  ⟨_, .cons rfl (.cons rfl (.cons rfl (.cons rfl (.cons rfl (.cons rfl .nil))))), by decide,
    by decide +kernel⟩

-- An accented letter is not stored, so erasing it takes the letter before it.
example : (typed [.key 'a', .key 'é', .key '\x08', .key '\n', .poll]).lines = [['a']] ∧
    ([.key 'a', .key 'é', .key '\x08', .key '\n', .poll].foldl next (new, [])).2 = [[]] := by
  decide +kernel

end Tty

end BraneKernel

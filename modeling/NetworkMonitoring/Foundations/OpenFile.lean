import NetworkMonitoring.Foundations.ByteBuffer

/-!
# Regular files behind a descriptor

A file is the list of its bytes, seen through a descriptor with a position. Writing overwrites the
bytes from the position on and moves it behind them; a file that is open for appending is written at
its end. At the end of the file writing is appending (`write_of_atEnd`), and cutting the file back
after that restores it (`truncate_appended`).
-/

namespace FileIo

open ByteBuffer

/-- A regular file as it is seen through one descriptor. -/
structure OpenFile where
  content : List UInt8
  pos : ℕ
  /-- `O_APPEND`. -/
  append : Bool := false
  deriving DecidableEq

namespace OpenFile

/-- Put zeros behind the content, up to size `n`. -/
def grow (f : OpenFile) (n : ℕ) : List UInt8 :=
  f.content ++ List.replicate (n - f.content.length) 0

/-- Overwrite the bytes from `start` on, where the file is made long enough first, and stand behind
them. -/
def writeAt (f : OpenFile) (start : ℕ) (bs : List UInt8) : OpenFile :=
  { f with content := poke (f.grow start) start bs, pos := start + bs.length }

/-- Write the bytes `bs`; writing no bytes changes nothing. -/
def write (f : OpenFile) (bs : List UInt8) : OpenFile :=
  if bs = [] then f else f.writeAt (if f.append then f.content.length else f.pos) bs

/-- Move the position. -/
def seek (f : OpenFile) (pos : ℕ) : OpenFile := { f with pos := pos }

/-- Make the file `n` bytes long. -/
def truncate (f : OpenFile) (n : ℕ) : OpenFile := { f with content := (f.grow n).take n }

/-- The descriptor stands at the end of the file. -/
def AtEnd (f : OpenFile) : Prop := f.pos = f.content.length

/-- The file with `bs` put behind it, and the position moved by as much. -/
def appended (f : OpenFile) (bs : List UInt8) : OpenFile :=
  { f with content := f.content ++ bs, pos := f.pos + bs.length }

variable {f : OpenFile} {bs : List UInt8}

@[simp]
theorem content_appended : (f.appended bs).content = f.content ++ bs := rfl

@[simp]
theorem pos_appended : (f.appended bs).pos = f.pos + bs.length := rfl

theorem appended_nil : f.appended [] = f := by
  rw [appended, List.append_nil]
  rfl

theorem appended_appended {cs : List UInt8} :
    (f.appended bs).appended cs = f.appended (bs ++ cs) := by
  simp only [appended, List.append_assoc, List.length_append, Nat.add_assoc]

theorem AtEnd.appended (hend : f.AtEnd) : (f.appended bs).AtEnd := by
  rw [AtEnd, pos_appended, content_appended, List.length_append, hend]

/-- At the end of the file writing is appending, however the file was opened. -/
theorem write_of_atEnd (hend : f.AtEnd) : f.write bs = f.appended bs := by
  by_cases hbs : bs = []
  · rw [write, if_pos hbs, hbs, appended_nil]
  · have hstart : (if f.append then f.content.length else f.pos) = f.content.length := by
      rw [hend, ite_self]
    have hgrow : f.grow f.content.length = f.content ++ [] := by
      rw [grow, Nat.sub_self, List.replicate_zero]
    have hpoke : poke (f.content ++ []) f.content.length bs = f.content ++ bs := by
      rw [poke_append_left rfl, List.drop_nil, List.append_nil]
    rw [write, if_neg hbs, hstart, writeAt, hgrow, hpoke, OpenFile.appended, hend]

/-- Going back to where the bytes were appended and cutting the file there removes them. -/
theorem truncate_appended (hend : f.AtEnd) :
    ((f.appended bs).seek f.pos).truncate f.pos = f := by
  have hcut : (((f.appended bs).seek f.pos).grow f.pos).take f.pos = f.content := by
    rw [grow, hend]
    show List.take f.content.length ((f.content ++ bs) ++ _) = f.content
    rw [List.append_assoc, List.take_left]
  rw [truncate, hcut]
  rfl

end OpenFile

end FileIo

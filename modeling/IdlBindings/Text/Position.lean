/-!
# Positions in a source text

A position counts what stands before it: bytes of the encoded text, line ends, and characters since
the last line end. All three move together, one character at a time.

## Main definitions

* `Position`: byte offset, line and column of a place in a text
* `Position.after`: the position reached by walking over some characters
-/
namespace IdlBindings

/-- A place in a source text. The offset counts UTF-8 bytes from zero; line and column count from
one, and the column counts characters, not bytes. -/
structure Position where
  offset : Nat
  line : Nat
  column : Nat
deriving DecidableEq, Repr

namespace Position

def start : Position := ⟨0, 1, 1⟩

/-- Only a line feed ends a line; a carriage return is an ordinary character. -/
def next (p : Position) (c : Char) : Position :=
  if c = '\n' then ⟨p.offset + c.utf8Size, p.line + 1, 1⟩
  else ⟨p.offset + c.utf8Size, p.line, p.column + 1⟩

/-- The position reached from `p` by walking over `cs`. -/
def after (p : Position) (cs : List Char) : Position := cs.foldl next p

@[simp] theorem after_nil (p : Position) : p.after [] = p := rfl

@[simp] theorem after_cons (p : Position) (c : Char) (cs : List Char) :
    p.after (c :: cs) = (p.next c).after cs := rfl

@[simp] theorem after_append (p : Position) (cs ds : List Char) :
    p.after (cs ++ ds) = (p.after cs).after ds := by simp [after]

@[simp] theorem offset_next (p : Position) (c : Char) :
    (p.next c).offset = p.offset + c.utf8Size := by
  unfold next; split <;> rfl

/-- Line and column as shown to a reader. -/
def text (p : Position) : String := toString p.line ++ ":" ++ toString p.column

end Position
end IdlBindings

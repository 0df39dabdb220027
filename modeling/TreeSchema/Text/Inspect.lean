import TreeSchema.Text.Unprintable

/-!
# One-line text forms

Reports and logs show a value on one line: a text in quotes, a record with its fields in braces, a
named value around another one in parentheses, a list in brackets. `Inspect` is the class of types
with such a form.
-/

namespace TreeSchema.Text

set_option autoImplicit false

/-- How one character stands inside quotes. Quote and backslash are escaped, the usual blanks and
the zero character have a letter, and any other character without a glyph is written by its number
in lower-case hexadecimal. -/
def quotedChar (c : Char) : List Char :=
  if c = '"' then ['\\', '"']
  else if c = '\\' then ['\\', '\\']
  else if c = '\n' then ['\\', 'n']
  else if c = '\r' then ['\\', 'r']
  else if c = '\t' then ['\\', 't']
  else if c.toNat = 0 then ['\\', '0']
  else if isUnprintable c then
    '\\' :: 'u' :: '\x7b' :: Nat.toDigits 16 c.toNat ++ ['\x7d']
  else [c]

def quoted (s : String) : String :=
  String.ofList ('"' :: s.toList.flatMap quotedChar ++ ['"'])

/-- A record: its name, then its labelled fields in braces. Without fields the name stands alone. -/
def record (name : String) (fields : List (String × String)) : String :=
  if fields.isEmpty then name
  else name ++ " \x7b " ++ ", ".intercalate (fields.map fun f => f.1 ++ ": " ++ f.2) ++ " \x7d"

def applied (name inner : String) : String :=
  name ++ "(" ++ inner ++ ")"

def listed (items : List String) : String :=
  "[" ++ ", ".intercalate items ++ "]"

def optional : Option String → String
  | none => "None"
  | some inner => applied "Some" inner

end TreeSchema.Text

namespace TreeSchema

set_option autoImplicit false

class Inspect (α : Type) where
  inspect : α → String

export Inspect (inspect)

instance : Inspect String := ⟨Text.quoted⟩

instance : Inspect Bool := ⟨fun b => if b then "true" else "false"⟩

instance {α : Type} [Inspect α] : Inspect (List α) := ⟨fun xs => Text.listed (xs.map inspect)⟩

instance {α : Type} [Inspect α] : Inspect (Option α) := ⟨fun x => Text.optional (x.map inspect)⟩

instance {α β : Type} [Inspect α] [Inspect β] : Inspect (α × β) :=
  ⟨fun p => "(" ++ inspect p.1 ++ ", " ++ inspect p.2 ++ ")"⟩

end TreeSchema

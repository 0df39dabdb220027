import TreeSchema.Text.Attaching
import TreeSchema.Text.Unassigned

/-!
# Characters without a glyph of their own

A quoted text is meant for one line of a log, so a character that would not show there is written
by its number. Those are the marks that attach to the character before them, the code points without
a character, and the invisible characters: controls, format characters, separators other than the
plain space, ignorable fillers and private use.
-/

namespace TreeSchema.Text

set_option autoImplicit false

/-- First and last code point of each run of invisible characters, in increasing order. -/
def invisibleRanges : List (Nat × Nat) :=
  [(0x0, 0x1f), (0x7f, 0xa0), (0xad, 0xad), (0x600, 0x605), (0x61c, 0x61c), (0x6dd, 0x6dd),
   (0x70f, 0x70f), (0x890, 0x891), (0x8e2, 0x8e2), (0x115f, 0x1160), (0x1680, 0x1680),
   (0x180e, 0x180e), (0x2000, 0x200f), (0x2028, 0x202f), (0x205f, 0x2064), (0x2066, 0x206f),
   (0x3000, 0x3000), (0x3164, 0x3164), (0xe000, 0xf8ff), (0xfeff, 0xfeff), (0xffa0, 0xffa0),
   (0xfff9, 0xfffb), (0x110bd, 0x110bd), (0x110cd, 0x110cd), (0x13430, 0x1343f),
   (0x1bca0, 0x1bca3), (0x1d173, 0x1d17a), (0xe0001, 0xe0001), (0xe0020, 0xe007f),
   (0xf0000, 0xffffd), (0x100000, 0x10fffd)]

def inRanges (code : Nat) (ranges : List (Nat × Nat)) : Bool :=
  ranges.any fun r => decide (r.1 ≤ code ∧ code ≤ r.2)

/-- Whether a character has no glyph of its own, so that quoting writes its number. The printable
part of ASCII is settled without a look at the tables. -/
def isUnprintable (c : Char) : Bool :=
  if 0x20 ≤ c.toNat ∧ c.toNat < 0x7f then false
  else
    inRanges c.toNat invisibleRanges || inRanges c.toNat attachingRanges
      || inRanges c.toNat unassignedRanges

end TreeSchema.Text

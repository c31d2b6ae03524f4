/-
IncludeFlattener.Text.CharSet.Blank — the white space of Unicode.
-/
import IncludeFlattener.Text.CharSet
namespace IncludeFlattener.Text.CharSet

/-- The twenty-five characters that Unicode counts as white space. Line ends
are among them. -/
def blank : CharSet where
  ranges := [
    (0x09, 0x0D), (0x20, 0x20), (0x85, 0x85), (0xA0, 0xA0), (0x1680, 0x1680),
    (0x2000, 0x200A), (0x2028, 0x2029), (0x202F, 0x202F), (0x205F, 0x205F),
    (0x3000, 0x3000)]

end IncludeFlattener.Text.CharSet

/-
The ASCII form of a text: what its compatibility decomposition leaves for a name.

A character of ASCII is its own form.  Of any other character the form is what is left of its
decomposition when every character outside ASCII is dropped, with letters made small and everything but
letters and digits written as a blank: an accented letter keeps its base letter, a ligature its letters, a
circled number its digits.  A character without ASCII in its decomposition has an empty form: it vanishes
and separates nothing.  The canonical reordering of a decomposition moves combining marks only, so it
cannot change the form.

Main definitions:

* `CribSheet.AsciiRange` — consecutive characters whose forms follow one pattern;
* `CribSheet.asciiRanges` — the data;
* `CribSheet.asciiForm`, `CribSheet.asciiForms` — the form of a character, and of a text.
-/
import CribSheet.Text.Basic

set_option relaxedAutoImplicit false
set_option autoImplicit false

namespace CribSheet

/-- How the forms of consecutive characters go on. -/
inductive AsciiPattern
  /-- All have this form. -/
  | same (form : String)
  /-- The middle runs through the alphabet or the digits. -/
  | letters (lead : String) (first : Char) (tail : String)
  /-- The middle is a number that counts up. -/
  | numbers (lead : String) (first : Nat) (tail : String)
deriving Repr, DecidableEq

/-- Consecutive characters and the pattern of their forms. -/
structure AsciiRange where
  /-- Code of the first character. -/
  first : Nat
  /-- Code of the last character. -/
  last : Nat
  /-- The pattern of the forms. -/
  pattern : AsciiPattern
deriving Repr, DecidableEq

/-- The form of the character at a distance from the first one. -/
def AsciiPattern.form (pattern : AsciiPattern) (distance : Nat) : Text :=
  match pattern with
  | .same form => form.toList
  | .letters lead first tail => lead.toList ++ Char.ofNat (first.toNat + distance) :: tail.toList
  | .numbers lead first tail => lead.toList ++ (toString (first + distance)).toList ++ tail.toList

/-! ### The data -/

/-- Latin letters, signs and modifiers. -/
def latinForms : List AsciiRange :=
  [⟨0xA0, 0xA0, .same " "⟩, ⟨0xA8, 0xA8, .same " "⟩, ⟨0xAA, 0xAA, .same "a"⟩,
   ⟨0xAF, 0xAF, .same " "⟩, ⟨0xB2, 0xB3, .letters "" '2' ""⟩, ⟨0xB4, 0xB4, .same " "⟩,
   ⟨0xB8, 0xB8, .same " "⟩, ⟨0xB9, 0xB9, .same "1"⟩, ⟨0xBA, 0xBA, .same "o"⟩,
   ⟨0xBC, 0xBC, .same "14"⟩, ⟨0xBD, 0xBD, .same "12"⟩, ⟨0xBE, 0xBE, .same "34"⟩,
   ⟨0xC0, 0xC5, .same "a"⟩, ⟨0xC7, 0xC7, .same "c"⟩, ⟨0xC8, 0xCB, .same "e"⟩,
   ⟨0xCC, 0xCF, .same "i"⟩, ⟨0xD1, 0xD2, .letters "" 'n' ""⟩, ⟨0xD3, 0xD6, .same "o"⟩,
   ⟨0xD9, 0xDC, .same "u"⟩, ⟨0xDD, 0xDD, .same "y"⟩, ⟨0xE0, 0xE5, .same "a"⟩,
   ⟨0xE7, 0xE7, .same "c"⟩, ⟨0xE8, 0xEB, .same "e"⟩, ⟨0xEC, 0xEF, .same "i"⟩,
   ⟨0xF1, 0xF2, .letters "" 'n' ""⟩, ⟨0xF3, 0xF6, .same "o"⟩, ⟨0xF9, 0xFC, .same "u"⟩,
   ⟨0xFD, 0xFD, .same "y"⟩, ⟨0xFF, 0xFF, .same "y"⟩, ⟨0x100, 0x105, .same "a"⟩,
   ⟨0x106, 0x10D, .same "c"⟩, ⟨0x10E, 0x10F, .same "d"⟩, ⟨0x112, 0x11B, .same "e"⟩,
   ⟨0x11C, 0x123, .same "g"⟩, ⟨0x124, 0x125, .same "h"⟩, ⟨0x128, 0x130, .same "i"⟩,
   ⟨0x132, 0x133, .same "ij"⟩, ⟨0x134, 0x135, .same "j"⟩, ⟨0x136, 0x137, .same "k"⟩,
   ⟨0x139, 0x140, .same "l"⟩, ⟨0x143, 0x149, .same "n"⟩, ⟨0x14C, 0x151, .same "o"⟩,
   ⟨0x154, 0x159, .same "r"⟩, ⟨0x15A, 0x161, .same "s"⟩, ⟨0x162, 0x165, .same "t"⟩,
   ⟨0x168, 0x173, .same "u"⟩, ⟨0x174, 0x175, .same "w"⟩, ⟨0x176, 0x178, .same "y"⟩,
   ⟨0x179, 0x17E, .same "z"⟩, ⟨0x17F, 0x17F, .same "s"⟩, ⟨0x1A0, 0x1A1, .same "o"⟩,
   ⟨0x1AF, 0x1B0, .same "u"⟩, ⟨0x1C4, 0x1C6, .same "dz"⟩, ⟨0x1C7, 0x1C9, .same "lj"⟩,
   ⟨0x1CA, 0x1CC, .same "nj"⟩, ⟨0x1CD, 0x1CE, .same "a"⟩, ⟨0x1CF, 0x1D0, .same "i"⟩,
   ⟨0x1D1, 0x1D2, .same "o"⟩, ⟨0x1D3, 0x1DC, .same "u"⟩, ⟨0x1DE, 0x1E1, .same "a"⟩,
   ⟨0x1E6, 0x1E7, .same "g"⟩, ⟨0x1E8, 0x1E9, .same "k"⟩, ⟨0x1EA, 0x1ED, .same "o"⟩,
   ⟨0x1F0, 0x1F0, .same "j"⟩, ⟨0x1F1, 0x1F3, .same "dz"⟩, ⟨0x1F4, 0x1F5, .same "g"⟩,
   ⟨0x1F8, 0x1F9, .same "n"⟩, ⟨0x1FA, 0x1FB, .same "a"⟩, ⟨0x200, 0x203, .same "a"⟩,
   ⟨0x204, 0x207, .same "e"⟩, ⟨0x208, 0x20B, .same "i"⟩, ⟨0x20C, 0x20F, .same "o"⟩,
   ⟨0x210, 0x213, .same "r"⟩, ⟨0x214, 0x217, .same "u"⟩, ⟨0x218, 0x219, .same "s"⟩,
   ⟨0x21A, 0x21B, .same "t"⟩, ⟨0x21E, 0x21F, .same "h"⟩, ⟨0x226, 0x227, .same "a"⟩,
   ⟨0x228, 0x229, .same "e"⟩, ⟨0x22A, 0x231, .same "o"⟩, ⟨0x232, 0x233, .same "y"⟩,
   ⟨0x2B0, 0x2B0, .same "h"⟩, ⟨0x2B2, 0x2B2, .same "j"⟩, ⟨0x2B3, 0x2B3, .same "r"⟩,
   ⟨0x2B7, 0x2B7, .same "w"⟩, ⟨0x2B8, 0x2B8, .same "y"⟩, ⟨0x2D8, 0x2DD, .same " "⟩,
   ⟨0x2E1, 0x2E1, .same "l"⟩, ⟨0x2E2, 0x2E2, .same "s"⟩, ⟨0x2E3, 0x2E3, .same "x"⟩,
   ⟨0x37A, 0x37A, .same " "⟩, ⟨0x37E, 0x37E, .same " "⟩, ⟨0x384, 0x385, .same " "⟩,
   ⟨0x1D2C, 0x1D2C, .same "a"⟩, ⟨0x1D2E, 0x1D2E, .same "b"⟩, ⟨0x1D30, 0x1D31, .letters "" 'd' ""⟩,
   ⟨0x1D33, 0x1D3A, .letters "" 'g' ""⟩, ⟨0x1D3C, 0x1D3C, .same "o"⟩, ⟨0x1D3E, 0x1D3E, .same "p"⟩,
   ⟨0x1D3F, 0x1D3F, .same "r"⟩, ⟨0x1D40, 0x1D41, .letters "" 't' ""⟩, ⟨0x1D42, 0x1D42, .same "w"⟩,
   ⟨0x1D43, 0x1D43, .same "a"⟩, ⟨0x1D47, 0x1D47, .same "b"⟩, ⟨0x1D48, 0x1D49, .letters "" 'd' ""⟩,
   ⟨0x1D4D, 0x1D4D, .same "g"⟩, ⟨0x1D4F, 0x1D4F, .same "k"⟩, ⟨0x1D50, 0x1D50, .same "m"⟩,
   ⟨0x1D52, 0x1D52, .same "o"⟩, ⟨0x1D56, 0x1D56, .same "p"⟩, ⟨0x1D57, 0x1D58, .letters "" 't' ""⟩,
   ⟨0x1D5B, 0x1D5B, .same "v"⟩, ⟨0x1D62, 0x1D62, .same "i"⟩, ⟨0x1D63, 0x1D63, .same "r"⟩,
   ⟨0x1D64, 0x1D65, .letters "" 'u' ""⟩, ⟨0x1D9C, 0x1D9C, .same "c"⟩, ⟨0x1DA0, 0x1DA0, .same "f"⟩,
   ⟨0x1DBB, 0x1DBB, .same "z"⟩, ⟨0x1E00, 0x1E01, .same "a"⟩, ⟨0x1E02, 0x1E07, .same "b"⟩,
   ⟨0x1E08, 0x1E09, .same "c"⟩, ⟨0x1E0A, 0x1E13, .same "d"⟩, ⟨0x1E14, 0x1E1D, .same "e"⟩,
   ⟨0x1E1E, 0x1E1F, .same "f"⟩, ⟨0x1E20, 0x1E21, .same "g"⟩, ⟨0x1E22, 0x1E2B, .same "h"⟩,
   ⟨0x1E2C, 0x1E2F, .same "i"⟩, ⟨0x1E30, 0x1E35, .same "k"⟩, ⟨0x1E36, 0x1E3D, .same "l"⟩,
   ⟨0x1E3E, 0x1E43, .same "m"⟩, ⟨0x1E44, 0x1E4B, .same "n"⟩, ⟨0x1E4C, 0x1E53, .same "o"⟩,
   ⟨0x1E54, 0x1E57, .same "p"⟩, ⟨0x1E58, 0x1E5F, .same "r"⟩, ⟨0x1E60, 0x1E69, .same "s"⟩,
   ⟨0x1E6A, 0x1E71, .same "t"⟩, ⟨0x1E72, 0x1E7B, .same "u"⟩, ⟨0x1E7C, 0x1E7F, .same "v"⟩,
   ⟨0x1E80, 0x1E89, .same "w"⟩, ⟨0x1E8A, 0x1E8D, .same "x"⟩, ⟨0x1E8E, 0x1E8F, .same "y"⟩,
   ⟨0x1E90, 0x1E95, .same "z"⟩, ⟨0x1E96, 0x1E96, .same "h"⟩, ⟨0x1E97, 0x1E97, .same "t"⟩,
   ⟨0x1E98, 0x1E98, .same "w"⟩, ⟨0x1E99, 0x1E99, .same "y"⟩, ⟨0x1E9A, 0x1E9A, .same "a"⟩,
   ⟨0x1E9B, 0x1E9B, .same "s"⟩, ⟨0x1EA0, 0x1EB7, .same "a"⟩, ⟨0x1EB8, 0x1EC7, .same "e"⟩,
   ⟨0x1EC8, 0x1ECB, .same "i"⟩, ⟨0x1ECC, 0x1EE3, .same "o"⟩, ⟨0x1EE4, 0x1EF1, .same "u"⟩,
   ⟨0x1EF2, 0x1EF9, .same "y"⟩, ⟨0x1FBD, 0x1FBD, .same " "⟩, ⟨0x1FBF, 0x1FC1, .same " "⟩,
   ⟨0x1FCD, 0x1FCF, .same " "⟩, ⟨0x1FDD, 0x1FDF, .same " "⟩, ⟨0x1FED, 0x1FEF, .same " "⟩,
   ⟨0x1FFD, 0x1FFE, .same " "⟩]

/-- Punctuation, numerals, letters with a shape of their own and signs. -/
def symbolForms : List AsciiRange :=
  [⟨0x2000, 0x200A, .same " "⟩, ⟨0x2017, 0x2017, .same " "⟩, ⟨0x2024, 0x2024, .same " "⟩,
   ⟨0x2025, 0x2025, .same "  "⟩, ⟨0x2026, 0x2026, .same "   "⟩, ⟨0x202F, 0x202F, .same " "⟩,
   ⟨0x203C, 0x203C, .same "  "⟩, ⟨0x203E, 0x203E, .same " "⟩, ⟨0x2047, 0x2049, .same "  "⟩,
   ⟨0x205F, 0x205F, .same " "⟩, ⟨0x2070, 0x2070, .same "0"⟩, ⟨0x2071, 0x2071, .same "i"⟩,
   ⟨0x2074, 0x2079, .letters "" '4' ""⟩, ⟨0x207A, 0x207A, .same " "⟩, ⟨0x207C, 0x207E, .same " "⟩,
   ⟨0x207F, 0x207F, .same "n"⟩, ⟨0x2080, 0x2089, .letters "" '0' ""⟩, ⟨0x208A, 0x208A, .same " "⟩,
   ⟨0x208C, 0x208E, .same " "⟩, ⟨0x2090, 0x2090, .same "a"⟩, ⟨0x2091, 0x2091, .same "e"⟩,
   ⟨0x2092, 0x2092, .same "o"⟩, ⟨0x2093, 0x2093, .same "x"⟩, ⟨0x2095, 0x2095, .same "h"⟩,
   ⟨0x2096, 0x2099, .letters "" 'k' ""⟩, ⟨0x209A, 0x209A, .same "p"⟩,
   ⟨0x209B, 0x209C, .letters "" 's' ""⟩, ⟨0x20A8, 0x20A8, .same "rs"⟩,
   ⟨0x2100, 0x2100, .same "a c"⟩, ⟨0x2101, 0x2101, .same "a s"⟩, ⟨0x2102, 0x2103, .same "c"⟩,
   ⟨0x2105, 0x2105, .same "c o"⟩, ⟨0x2106, 0x2106, .same "c u"⟩,
   ⟨0x2109, 0x210B, .letters "" 'f' ""⟩, ⟨0x210C, 0x210E, .same "h"⟩, ⟨0x2110, 0x2111, .same "i"⟩,
   ⟨0x2112, 0x2113, .same "l"⟩, ⟨0x2115, 0x2115, .same "n"⟩, ⟨0x2116, 0x2116, .same "no"⟩,
   ⟨0x2119, 0x211B, .letters "" 'p' ""⟩, ⟨0x211C, 0x211D, .same "r"⟩, ⟨0x2120, 0x2120, .same "sm"⟩,
   ⟨0x2121, 0x2121, .same "tel"⟩, ⟨0x2122, 0x2122, .same "tm"⟩, ⟨0x2124, 0x2124, .same "z"⟩,
   ⟨0x2128, 0x2128, .same "z"⟩, ⟨0x212A, 0x212A, .same "k"⟩, ⟨0x212B, 0x212D, .letters "" 'a' ""⟩,
   ⟨0x212F, 0x2130, .same "e"⟩, ⟨0x2131, 0x2131, .same "f"⟩, ⟨0x2133, 0x2133, .same "m"⟩,
   ⟨0x2134, 0x2134, .same "o"⟩, ⟨0x2139, 0x2139, .same "i"⟩, ⟨0x213B, 0x213B, .same "fax"⟩,
   ⟨0x2145, 0x2146, .same "d"⟩, ⟨0x2147, 0x2147, .same "e"⟩, ⟨0x2148, 0x2149, .letters "" 'i' ""⟩,
   ⟨0x2150, 0x2150, .same "17"⟩, ⟨0x2151, 0x2151, .same "19"⟩, ⟨0x2152, 0x2152, .same "110"⟩,
   ⟨0x2153, 0x2154, .letters "" '1' "3"⟩, ⟨0x2155, 0x2158, .letters "" '1' "5"⟩,
   ⟨0x2159, 0x2159, .same "16"⟩, ⟨0x215A, 0x215A, .same "56"⟩, ⟨0x215B, 0x215B, .same "18"⟩,
   ⟨0x215C, 0x215C, .same "38"⟩, ⟨0x215D, 0x215D, .same "58"⟩, ⟨0x215E, 0x215E, .same "78"⟩,
   ⟨0x215F, 0x215F, .same "1"⟩, ⟨0x2160, 0x2160, .same "i"⟩, ⟨0x2161, 0x2161, .same "ii"⟩,
   ⟨0x2162, 0x2162, .same "iii"⟩, ⟨0x2163, 0x2163, .same "iv"⟩, ⟨0x2164, 0x2164, .same "v"⟩,
   ⟨0x2165, 0x2165, .same "vi"⟩, ⟨0x2166, 0x2166, .same "vii"⟩, ⟨0x2167, 0x2167, .same "viii"⟩,
   ⟨0x2168, 0x2168, .same "ix"⟩, ⟨0x2169, 0x2169, .same "x"⟩, ⟨0x216A, 0x216A, .same "xi"⟩,
   ⟨0x216B, 0x216B, .same "xii"⟩, ⟨0x216C, 0x216C, .same "l"⟩,
   ⟨0x216D, 0x216E, .letters "" 'c' ""⟩, ⟨0x216F, 0x216F, .same "m"⟩, ⟨0x2170, 0x2170, .same "i"⟩,
   ⟨0x2171, 0x2171, .same "ii"⟩, ⟨0x2172, 0x2172, .same "iii"⟩, ⟨0x2173, 0x2173, .same "iv"⟩,
   ⟨0x2174, 0x2174, .same "v"⟩, ⟨0x2175, 0x2175, .same "vi"⟩, ⟨0x2176, 0x2176, .same "vii"⟩,
   ⟨0x2177, 0x2177, .same "viii"⟩, ⟨0x2178, 0x2178, .same "ix"⟩, ⟨0x2179, 0x2179, .same "x"⟩,
   ⟨0x217A, 0x217A, .same "xi"⟩, ⟨0x217B, 0x217B, .same "xii"⟩, ⟨0x217C, 0x217C, .same "l"⟩,
   ⟨0x217D, 0x217E, .letters "" 'c' ""⟩, ⟨0x217F, 0x217F, .same "m"⟩, ⟨0x2189, 0x2189, .same "03"⟩,
   ⟨0x2260, 0x2260, .same " "⟩, ⟨0x226E, 0x226F, .same " "⟩, ⟨0x2460, 0x2473, .numbers "" 1 ""⟩,
   ⟨0x2474, 0x2487, .numbers " " 1 " "⟩, ⟨0x2488, 0x249B, .numbers "" 1 " "⟩,
   ⟨0x249C, 0x24B5, .letters " " 'a' " "⟩, ⟨0x24B6, 0x24CF, .letters "" 'a' ""⟩,
   ⟨0x24D0, 0x24E9, .letters "" 'a' ""⟩, ⟨0x24EA, 0x24EA, .same "0"⟩,
   ⟨0x2A74, 0x2A74, .same "   "⟩, ⟨0x2A75, 0x2A75, .same "  "⟩, ⟨0x2A76, 0x2A76, .same "   "⟩,
   ⟨0x2C7C, 0x2C7C, .same "j"⟩, ⟨0x2C7D, 0x2C7D, .same "v"⟩]

/-- Squared, circled and presentation forms. -/
def compatibilityForms : List AsciiRange :=
  [⟨0x3000, 0x3000, .same " "⟩, ⟨0x309B, 0x309C, .same " "⟩, ⟨0x3200, 0x321E, .same "  "⟩,
   ⟨0x3220, 0x3243, .same "  "⟩, ⟨0x3250, 0x3250, .same "pte"⟩,
   ⟨0x3251, 0x325F, .numbers "" 21 ""⟩, ⟨0x32B1, 0x32BF, .numbers "" 36 ""⟩,
   ⟨0x32C0, 0x32CB, .numbers "" 1 ""⟩, ⟨0x32CC, 0x32CC, .same "hg"⟩, ⟨0x32CD, 0x32CD, .same "erg"⟩,
   ⟨0x32CE, 0x32CE, .same "ev"⟩, ⟨0x32CF, 0x32CF, .same "ltd"⟩, ⟨0x3358, 0x3370, .numbers "" 0 ""⟩,
   ⟨0x3371, 0x3371, .same "hpa"⟩, ⟨0x3372, 0x3372, .same "da"⟩, ⟨0x3373, 0x3373, .same "au"⟩,
   ⟨0x3374, 0x3374, .same "bar"⟩, ⟨0x3375, 0x3375, .same "ov"⟩, ⟨0x3376, 0x3376, .same "pc"⟩,
   ⟨0x3377, 0x3377, .same "dm"⟩, ⟨0x3378, 0x3379, .letters "dm" '2' ""⟩,
   ⟨0x337A, 0x337A, .same "iu"⟩, ⟨0x3380, 0x3380, .same "pa"⟩, ⟨0x3381, 0x3381, .same "na"⟩,
   ⟨0x3382, 0x3382, .same "a"⟩, ⟨0x3383, 0x3383, .same "ma"⟩,
   ⟨0x3384, 0x3385, .letters "k" 'a' ""⟩, ⟨0x3386, 0x3386, .same "mb"⟩,
   ⟨0x3387, 0x3387, .same "gb"⟩, ⟨0x3388, 0x3388, .same "cal"⟩, ⟨0x3389, 0x3389, .same "kcal"⟩,
   ⟨0x338A, 0x338A, .same "pf"⟩, ⟨0x338B, 0x338B, .same "nf"⟩,
   ⟨0x338C, 0x338D, .letters "" 'f' ""⟩, ⟨0x338E, 0x338E, .same "mg"⟩,
   ⟨0x338F, 0x338F, .same "kg"⟩, ⟨0x3390, 0x3390, .same "hz"⟩, ⟨0x3391, 0x3391, .same "khz"⟩,
   ⟨0x3392, 0x3392, .same "mhz"⟩, ⟨0x3393, 0x3393, .same "ghz"⟩, ⟨0x3394, 0x3394, .same "thz"⟩,
   ⟨0x3395, 0x3395, .same "l"⟩, ⟨0x3396, 0x3396, .same "ml"⟩, ⟨0x3397, 0x3397, .same "dl"⟩,
   ⟨0x3398, 0x3398, .same "kl"⟩, ⟨0x3399, 0x3399, .same "fm"⟩, ⟨0x339A, 0x339A, .same "nm"⟩,
   ⟨0x339B, 0x339B, .same "m"⟩, ⟨0x339C, 0x339C, .same "mm"⟩, ⟨0x339D, 0x339D, .same "cm"⟩,
   ⟨0x339E, 0x339E, .same "km"⟩, ⟨0x339F, 0x339F, .same "mm2"⟩, ⟨0x33A0, 0x33A0, .same "cm2"⟩,
   ⟨0x33A1, 0x33A1, .same "m2"⟩, ⟨0x33A2, 0x33A2, .same "km2"⟩, ⟨0x33A3, 0x33A3, .same "mm3"⟩,
   ⟨0x33A4, 0x33A4, .same "cm3"⟩, ⟨0x33A5, 0x33A5, .same "m3"⟩, ⟨0x33A6, 0x33A6, .same "km3"⟩,
   ⟨0x33A7, 0x33A7, .same "ms"⟩, ⟨0x33A8, 0x33A8, .same "ms2"⟩, ⟨0x33A9, 0x33A9, .same "pa"⟩,
   ⟨0x33AA, 0x33AA, .same "kpa"⟩, ⟨0x33AB, 0x33AB, .same "mpa"⟩, ⟨0x33AC, 0x33AC, .same "gpa"⟩,
   ⟨0x33AD, 0x33AD, .same "rad"⟩, ⟨0x33AE, 0x33AE, .same "rads"⟩, ⟨0x33AF, 0x33AF, .same "rads2"⟩,
   ⟨0x33B0, 0x33B0, .same "ps"⟩, ⟨0x33B1, 0x33B1, .same "ns"⟩, ⟨0x33B2, 0x33B2, .same "s"⟩,
   ⟨0x33B3, 0x33B3, .same "ms"⟩, ⟨0x33B4, 0x33B4, .same "pv"⟩, ⟨0x33B5, 0x33B5, .same "nv"⟩,
   ⟨0x33B6, 0x33B6, .same "v"⟩, ⟨0x33B7, 0x33B7, .same "mv"⟩, ⟨0x33B8, 0x33B8, .same "kv"⟩,
   ⟨0x33B9, 0x33B9, .same "mv"⟩, ⟨0x33BA, 0x33BA, .same "pw"⟩, ⟨0x33BB, 0x33BB, .same "nw"⟩,
   ⟨0x33BC, 0x33BC, .same "w"⟩, ⟨0x33BD, 0x33BD, .same "mw"⟩, ⟨0x33BE, 0x33BE, .same "kw"⟩,
   ⟨0x33BF, 0x33BF, .same "mw"⟩, ⟨0x33C0, 0x33C0, .same "k"⟩, ⟨0x33C1, 0x33C1, .same "m"⟩,
   ⟨0x33C2, 0x33C2, .same "a m "⟩, ⟨0x33C3, 0x33C3, .same "bq"⟩,
   ⟨0x33C4, 0x33C5, .letters "c" 'c' ""⟩, ⟨0x33C6, 0x33C6, .same "ckg"⟩,
   ⟨0x33C7, 0x33C7, .same "co "⟩, ⟨0x33C8, 0x33C8, .same "db"⟩, ⟨0x33C9, 0x33C9, .same "gy"⟩,
   ⟨0x33CA, 0x33CA, .same "ha"⟩, ⟨0x33CB, 0x33CB, .same "hp"⟩, ⟨0x33CC, 0x33CC, .same "in"⟩,
   ⟨0x33CD, 0x33CD, .same "kk"⟩, ⟨0x33CE, 0x33CE, .same "km"⟩, ⟨0x33CF, 0x33CF, .same "kt"⟩,
   ⟨0x33D0, 0x33D1, .letters "l" 'm' ""⟩, ⟨0x33D2, 0x33D2, .same "log"⟩,
   ⟨0x33D3, 0x33D3, .same "lx"⟩, ⟨0x33D4, 0x33D4, .same "mb"⟩, ⟨0x33D5, 0x33D5, .same "mil"⟩,
   ⟨0x33D6, 0x33D6, .same "mol"⟩, ⟨0x33D7, 0x33D7, .same "ph"⟩, ⟨0x33D8, 0x33D8, .same "p m "⟩,
   ⟨0x33D9, 0x33D9, .same "ppm"⟩, ⟨0x33DA, 0x33DA, .same "pr"⟩, ⟨0x33DB, 0x33DB, .same "sr"⟩,
   ⟨0x33DC, 0x33DC, .same "sv"⟩, ⟨0x33DD, 0x33DD, .same "wb"⟩, ⟨0x33DE, 0x33DE, .same "vm"⟩,
   ⟨0x33DF, 0x33DF, .same "am"⟩, ⟨0x33E0, 0x33FE, .numbers "" 1 ""⟩, ⟨0x33FF, 0x33FF, .same "gal"⟩,
   ⟨0xA7F2, 0xA7F2, .same "c"⟩, ⟨0xA7F3, 0xA7F3, .same "f"⟩, ⟨0xA7F4, 0xA7F4, .same "q"⟩,
   ⟨0xFB00, 0xFB00, .same "ff"⟩, ⟨0xFB01, 0xFB01, .same "fi"⟩, ⟨0xFB02, 0xFB02, .same "fl"⟩,
   ⟨0xFB03, 0xFB03, .same "ffi"⟩, ⟨0xFB04, 0xFB04, .same "ffl"⟩, ⟨0xFB05, 0xFB06, .same "st"⟩,
   ⟨0xFB29, 0xFB29, .same " "⟩, ⟨0xFC5E, 0xFC63, .same " "⟩, ⟨0xFDFA, 0xFDFA, .same "   "⟩,
   ⟨0xFDFB, 0xFDFB, .same " "⟩, ⟨0xFE10, 0xFE10, .same " "⟩, ⟨0xFE13, 0xFE16, .same " "⟩,
   ⟨0xFE19, 0xFE19, .same "   "⟩, ⟨0xFE30, 0xFE30, .same "  "⟩, ⟨0xFE33, 0xFE38, .same " "⟩,
   ⟨0xFE47, 0xFE50, .same " "⟩, ⟨0xFE52, 0xFE52, .same " "⟩, ⟨0xFE54, 0xFE57, .same " "⟩,
   ⟨0xFE59, 0xFE5C, .same " "⟩, ⟨0xFE5F, 0xFE66, .same " "⟩, ⟨0xFE68, 0xFE6B, .same " "⟩,
   ⟨0xFE70, 0xFE70, .same " "⟩, ⟨0xFE72, 0xFE72, .same " "⟩, ⟨0xFE74, 0xFE74, .same " "⟩,
   ⟨0xFE76, 0xFE76, .same " "⟩, ⟨0xFE78, 0xFE78, .same " "⟩, ⟨0xFE7A, 0xFE7A, .same " "⟩,
   ⟨0xFE7C, 0xFE7C, .same " "⟩, ⟨0xFE7E, 0xFE7E, .same " "⟩, ⟨0xFF01, 0xFF0F, .same " "⟩,
   ⟨0xFF10, 0xFF19, .letters "" '0' ""⟩, ⟨0xFF1A, 0xFF20, .same " "⟩,
   ⟨0xFF21, 0xFF3A, .letters "" 'a' ""⟩, ⟨0xFF3B, 0xFF40, .same " "⟩,
   ⟨0xFF41, 0xFF5A, .letters "" 'a' ""⟩, ⟨0xFF5B, 0xFF5E, .same " "⟩, ⟨0xFFE3, 0xFFE3, .same " "⟩]

/-- Letters and digits of mathematics and enclosed forms. -/
def planeForms : List AsciiRange :=
  [⟨0x107A5, 0x107A5, .same "q"⟩, ⟨0x1CCD6, 0x1CCEF, .letters "" 'a' ""⟩,
   ⟨0x1CCF0, 0x1CCF9, .letters "" '0' ""⟩, ⟨0x1D400, 0x1D419, .letters "" 'a' ""⟩,
   ⟨0x1D41A, 0x1D433, .letters "" 'a' ""⟩, ⟨0x1D434, 0x1D44D, .letters "" 'a' ""⟩,
   ⟨0x1D44E, 0x1D454, .letters "" 'a' ""⟩, ⟨0x1D456, 0x1D467, .letters "" 'i' ""⟩,
   ⟨0x1D468, 0x1D481, .letters "" 'a' ""⟩, ⟨0x1D482, 0x1D49B, .letters "" 'a' ""⟩,
   ⟨0x1D49C, 0x1D49C, .same "a"⟩, ⟨0x1D49E, 0x1D49F, .letters "" 'c' ""⟩,
   ⟨0x1D4A2, 0x1D4A2, .same "g"⟩, ⟨0x1D4A5, 0x1D4A6, .letters "" 'j' ""⟩,
   ⟨0x1D4A9, 0x1D4AC, .letters "" 'n' ""⟩, ⟨0x1D4AE, 0x1D4B5, .letters "" 's' ""⟩,
   ⟨0x1D4B6, 0x1D4B9, .letters "" 'a' ""⟩, ⟨0x1D4BB, 0x1D4BB, .same "f"⟩,
   ⟨0x1D4BD, 0x1D4C3, .letters "" 'h' ""⟩, ⟨0x1D4C5, 0x1D4CF, .letters "" 'p' ""⟩,
   ⟨0x1D4D0, 0x1D4E9, .letters "" 'a' ""⟩, ⟨0x1D4EA, 0x1D503, .letters "" 'a' ""⟩,
   ⟨0x1D504, 0x1D505, .letters "" 'a' ""⟩, ⟨0x1D507, 0x1D50A, .letters "" 'd' ""⟩,
   ⟨0x1D50D, 0x1D514, .letters "" 'j' ""⟩, ⟨0x1D516, 0x1D51C, .letters "" 's' ""⟩,
   ⟨0x1D51E, 0x1D537, .letters "" 'a' ""⟩, ⟨0x1D538, 0x1D539, .letters "" 'a' ""⟩,
   ⟨0x1D53B, 0x1D53E, .letters "" 'd' ""⟩, ⟨0x1D540, 0x1D544, .letters "" 'i' ""⟩,
   ⟨0x1D546, 0x1D546, .same "o"⟩, ⟨0x1D54A, 0x1D550, .letters "" 's' ""⟩,
   ⟨0x1D552, 0x1D56B, .letters "" 'a' ""⟩, ⟨0x1D56C, 0x1D585, .letters "" 'a' ""⟩,
   ⟨0x1D586, 0x1D59F, .letters "" 'a' ""⟩, ⟨0x1D5A0, 0x1D5B9, .letters "" 'a' ""⟩,
   ⟨0x1D5BA, 0x1D5D3, .letters "" 'a' ""⟩, ⟨0x1D5D4, 0x1D5ED, .letters "" 'a' ""⟩,
   ⟨0x1D5EE, 0x1D607, .letters "" 'a' ""⟩, ⟨0x1D608, 0x1D621, .letters "" 'a' ""⟩,
   ⟨0x1D622, 0x1D63B, .letters "" 'a' ""⟩, ⟨0x1D63C, 0x1D655, .letters "" 'a' ""⟩,
   ⟨0x1D656, 0x1D66F, .letters "" 'a' ""⟩, ⟨0x1D670, 0x1D689, .letters "" 'a' ""⟩,
   ⟨0x1D68A, 0x1D6A3, .letters "" 'a' ""⟩, ⟨0x1D7CE, 0x1D7D7, .letters "" '0' ""⟩,
   ⟨0x1D7D8, 0x1D7E1, .letters "" '0' ""⟩, ⟨0x1D7E2, 0x1D7EB, .letters "" '0' ""⟩,
   ⟨0x1D7EC, 0x1D7F5, .letters "" '0' ""⟩, ⟨0x1D7F6, 0x1D7FF, .letters "" '0' ""⟩,
   ⟨0x1F100, 0x1F101, .same "0 "⟩, ⟨0x1F102, 0x1F10A, .letters "" '1' " "⟩,
   ⟨0x1F110, 0x1F129, .letters " " 'a' " "⟩, ⟨0x1F12A, 0x1F12A, .same "s"⟩,
   ⟨0x1F12B, 0x1F12B, .same "c"⟩, ⟨0x1F12C, 0x1F12C, .same "r"⟩, ⟨0x1F12D, 0x1F12D, .same "cd"⟩,
   ⟨0x1F12E, 0x1F12E, .same "wz"⟩, ⟨0x1F130, 0x1F149, .letters "" 'a' ""⟩,
   ⟨0x1F14A, 0x1F14A, .same "hv"⟩, ⟨0x1F14B, 0x1F14B, .same "mv"⟩, ⟨0x1F14C, 0x1F14C, .same "sd"⟩,
   ⟨0x1F14D, 0x1F14D, .same "ss"⟩, ⟨0x1F14E, 0x1F14E, .same "ppv"⟩, ⟨0x1F14F, 0x1F14F, .same "wc"⟩,
   ⟨0x1F16A, 0x1F16B, .letters "m" 'c' ""⟩, ⟨0x1F16C, 0x1F16C, .same "mr"⟩,
   ⟨0x1F190, 0x1F190, .same "dj"⟩, ⟨0x1FBF0, 0x1FBF9, .letters "" '0' ""⟩]

/-- Every character outside ASCII that has an ASCII form. -/
def asciiRanges : List AsciiRange :=
  latinForms ++ symbolForms ++ compatibilityForms ++ planeForms

/-! ### The form -/

/-- **The ASCII form of a character.** -/
def asciiForm (c : Char) : Text :=
  if c.toNat < 128 then [c]
  else
    match asciiRanges.find? (fun r => r.first ≤ c.toNat && c.toNat ≤ r.last) with
    | some r => r.pattern.form (c.toNat - r.first)
    | none => []

/-- The ASCII form of a text. -/
def asciiForms (t : Text) : Text := t.flatMap asciiForm

end CribSheet

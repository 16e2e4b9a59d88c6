import ScreenEditor.Text.CharWidth

/-!
# What a character can join with

Some characters take fewer cells beside others: a flag is a pair of indicators, pictographs take
tones and joiners, and some letters are written as one.  Whether a character does so depends on what
stands behind it, which is a `Follower`.
-/

namespace ScreenEditor

/-- Codes of the pictographs that are shown as pictures unless text is asked for. -/
def pictureRanges : List (Nat × Nat) := [
    (0x231A, 0x231B), (0x23E9, 0x23EC), (0x23F0, 0x23F0), (0x23F3, 0x23F3), (0x25FD, 0x25FE),
    (0x2614, 0x2615), (0x2648, 0x2653), (0x267F, 0x267F), (0x2693, 0x2693), (0x26A1, 0x26A1),
    (0x26AA, 0x26AB), (0x26BD, 0x26BE), (0x26C4, 0x26C5), (0x26CE, 0x26CE), (0x26D4, 0x26D4),
    (0x26EA, 0x26EA), (0x26F2, 0x26F3), (0x26F5, 0x26F5), (0x26FA, 0x26FA), (0x26FD, 0x26FD),
    (0x2705, 0x2705), (0x270A, 0x270B), (0x2728, 0x2728), (0x274C, 0x274C), (0x274E, 0x274E),
    (0x2753, 0x2755), (0x2757, 0x2757), (0x2795, 0x2797), (0x27B0, 0x27B0), (0x27BF, 0x27BF),
    (0x2B1B, 0x2B1C), (0x2B50, 0x2B50), (0x2B55, 0x2B55), (0x1F004, 0x1F004), (0x1F0CF, 0x1F0CF),
    (0x1F18E, 0x1F18E), (0x1F191, 0x1F19A), (0x1F201, 0x1F201), (0x1F21A, 0x1F21A),
    (0x1F22F, 0x1F22F), (0x1F232, 0x1F236), (0x1F238, 0x1F23A), (0x1F250, 0x1F251),
    (0x1F300, 0x1F320), (0x1F32D, 0x1F335), (0x1F337, 0x1F37C), (0x1F37E, 0x1F393),
    (0x1F3A0, 0x1F3CA), (0x1F3CF, 0x1F3D3), (0x1F3E0, 0x1F3F0), (0x1F3F4, 0x1F3F4),
    (0x1F3F8, 0x1F3FA), (0x1F400, 0x1F43E), (0x1F440, 0x1F440), (0x1F442, 0x1F4FC),
    (0x1F4FF, 0x1F53D), (0x1F54B, 0x1F54E), (0x1F550, 0x1F567), (0x1F57A, 0x1F57A),
    (0x1F595, 0x1F596), (0x1F5A4, 0x1F5A4), (0x1F5FB, 0x1F64F), (0x1F680, 0x1F6C5),
    (0x1F6CC, 0x1F6CC), (0x1F6D0, 0x1F6D2), (0x1F6D5, 0x1F6D7), (0x1F6DC, 0x1F6DF),
    (0x1F6EB, 0x1F6EC), (0x1F6F4, 0x1F6FC), (0x1F7E0, 0x1F7EB), (0x1F7F0, 0x1F7F0),
    (0x1F90C, 0x1F93A), (0x1F93C, 0x1F945), (0x1F947, 0x1F9FF), (0x1FA70, 0x1FA7C),
    (0x1FA80, 0x1FA88), (0x1FA90, 0x1FABD), (0x1FABF, 0x1FAC5), (0x1FACE, 0x1FADB),
    (0x1FAE0, 0x1FAE8), (0x1FAF0, 0x1FAF8)]

/-- Codes of the pictographs that take a skin tone. -/
def tonedRanges : List (Nat × Nat) := [
    (0x261D, 0x261D), (0x26F9, 0x26F9), (0x270A, 0x270D), (0x1F385, 0x1F385), (0x1F3C2, 0x1F3C4),
    (0x1F3C7, 0x1F3C7), (0x1F3CA, 0x1F3CC), (0x1F442, 0x1F443), (0x1F446, 0x1F450),
    (0x1F466, 0x1F478), (0x1F47C, 0x1F47C), (0x1F481, 0x1F483), (0x1F485, 0x1F487),
    (0x1F48F, 0x1F48F), (0x1F491, 0x1F491), (0x1F4AA, 0x1F4AA), (0x1F574, 0x1F575),
    (0x1F57A, 0x1F57A), (0x1F590, 0x1F590), (0x1F595, 0x1F596), (0x1F645, 0x1F647),
    (0x1F64B, 0x1F64F), (0x1F6A3, 0x1F6A3), (0x1F6B4, 0x1F6B6), (0x1F6C0, 0x1F6C0),
    (0x1F6CC, 0x1F6CC), (0x1F90C, 0x1F90C), (0x1F90F, 0x1F90F), (0x1F918, 0x1F91F),
    (0x1F926, 0x1F926), (0x1F930, 0x1F939), (0x1F93C, 0x1F93E), (0x1F977, 0x1F977),
    (0x1F9B5, 0x1F9B6), (0x1F9B8, 0x1F9B9), (0x1F9BB, 0x1F9BB), (0x1F9CD, 0x1F9CF),
    (0x1F9D1, 0x1F9DD), (0x1FAC3, 0x1FAC5), (0x1FAF0, 0x1FAF8)]

/-- Codes of the characters that are shown as a picture or as text, whichever is asked for. -/
def selectableRanges : List (Nat × Nat) := [
    (0x23, 0x23), (0x2A, 0x2A), (0x30, 0x39), (0xA9, 0xA9), (0xAE, 0xAE), (0x203C, 0x203C),
    (0x2049, 0x2049), (0x2122, 0x2122), (0x2139, 0x2139), (0x2194, 0x2199), (0x21A9, 0x21AA),
    (0x231A, 0x231B), (0x2328, 0x2328), (0x23CF, 0x23CF), (0x23E9, 0x23F3), (0x23F8, 0x23FA),
    (0x24C2, 0x24C2), (0x25AA, 0x25AB), (0x25B6, 0x25B6), (0x25C0, 0x25C0), (0x25FB, 0x25FE),
    (0x2600, 0x2604), (0x260E, 0x260E), (0x2611, 0x2611), (0x2614, 0x2615), (0x2618, 0x2618),
    (0x261D, 0x261D), (0x2620, 0x2620), (0x2622, 0x2623), (0x2626, 0x2626), (0x262A, 0x262A),
    (0x262E, 0x262F), (0x2638, 0x263A), (0x2640, 0x2640), (0x2642, 0x2642), (0x2648, 0x2653),
    (0x265F, 0x2660), (0x2663, 0x2663), (0x2665, 0x2666), (0x2668, 0x2668), (0x267B, 0x267B),
    (0x267E, 0x267F), (0x2692, 0x2697), (0x2699, 0x2699), (0x269B, 0x269C), (0x26A0, 0x26A1),
    (0x26A7, 0x26A7), (0x26AA, 0x26AB), (0x26B0, 0x26B1), (0x26BD, 0x26BE), (0x26C4, 0x26C5),
    (0x26C8, 0x26C8), (0x26CE, 0x26CF), (0x26D1, 0x26D1), (0x26D3, 0x26D4), (0x26E9, 0x26EA),
    (0x26F0, 0x26F5), (0x26F7, 0x26FA), (0x26FD, 0x26FD), (0x2702, 0x2702), (0x2705, 0x2705),
    (0x2708, 0x270D), (0x270F, 0x270F), (0x2712, 0x2712), (0x2714, 0x2714), (0x2716, 0x2716),
    (0x271D, 0x271D), (0x2721, 0x2721), (0x2728, 0x2728), (0x2733, 0x2734), (0x2744, 0x2744),
    (0x2747, 0x2747), (0x274C, 0x274C), (0x274E, 0x274E), (0x2753, 0x2755), (0x2757, 0x2757),
    (0x2763, 0x2764), (0x2795, 0x2797), (0x27A1, 0x27A1), (0x27B0, 0x27B0), (0x27BF, 0x27BF),
    (0x2934, 0x2935), (0x2B05, 0x2B07), (0x2B1B, 0x2B1C), (0x2B50, 0x2B50), (0x2B55, 0x2B55),
    (0x3030, 0x3030), (0x303D, 0x303D), (0x3297, 0x3297), (0x3299, 0x3299), (0x1F004, 0x1F004),
    (0x1F170, 0x1F171), (0x1F17E, 0x1F17F), (0x1F202, 0x1F202), (0x1F21A, 0x1F21A),
    (0x1F22F, 0x1F22F), (0x1F237, 0x1F237), (0x1F30D, 0x1F30F), (0x1F315, 0x1F315),
    (0x1F31C, 0x1F31C), (0x1F321, 0x1F321), (0x1F324, 0x1F32C), (0x1F336, 0x1F336),
    (0x1F378, 0x1F378), (0x1F37D, 0x1F37D), (0x1F393, 0x1F393), (0x1F396, 0x1F397),
    (0x1F399, 0x1F39B), (0x1F39E, 0x1F39F), (0x1F3A7, 0x1F3A7), (0x1F3AC, 0x1F3AE),
    (0x1F3C2, 0x1F3C2), (0x1F3C4, 0x1F3C4), (0x1F3C6, 0x1F3C6), (0x1F3CA, 0x1F3CE),
    (0x1F3D4, 0x1F3E0), (0x1F3ED, 0x1F3ED), (0x1F3F3, 0x1F3F3), (0x1F3F5, 0x1F3F5),
    (0x1F3F7, 0x1F3F7), (0x1F408, 0x1F408), (0x1F415, 0x1F415), (0x1F41F, 0x1F41F),
    (0x1F426, 0x1F426), (0x1F43F, 0x1F43F), (0x1F441, 0x1F442), (0x1F446, 0x1F449),
    (0x1F44D, 0x1F44E), (0x1F453, 0x1F453), (0x1F46A, 0x1F46A), (0x1F47D, 0x1F47D),
    (0x1F4A3, 0x1F4A3), (0x1F4B0, 0x1F4B0), (0x1F4B3, 0x1F4B3), (0x1F4BB, 0x1F4BB),
    (0x1F4BF, 0x1F4BF), (0x1F4CB, 0x1F4CB), (0x1F4DA, 0x1F4DA), (0x1F4DF, 0x1F4DF),
    (0x1F4E4, 0x1F4E6), (0x1F4EA, 0x1F4ED), (0x1F4F7, 0x1F4F7), (0x1F4F9, 0x1F4FB),
    (0x1F4FD, 0x1F4FD), (0x1F508, 0x1F508), (0x1F50D, 0x1F50D), (0x1F512, 0x1F513),
    (0x1F549, 0x1F54A), (0x1F550, 0x1F567), (0x1F56F, 0x1F570), (0x1F573, 0x1F579),
    (0x1F587, 0x1F587), (0x1F58A, 0x1F58D), (0x1F590, 0x1F590), (0x1F5A5, 0x1F5A5),
    (0x1F5A8, 0x1F5A8), (0x1F5B1, 0x1F5B2), (0x1F5BC, 0x1F5BC), (0x1F5C2, 0x1F5C4),
    (0x1F5D1, 0x1F5D3), (0x1F5DC, 0x1F5DE), (0x1F5E1, 0x1F5E1), (0x1F5E3, 0x1F5E3),
    (0x1F5E8, 0x1F5E8), (0x1F5EF, 0x1F5EF), (0x1F5F3, 0x1F5F3), (0x1F5FA, 0x1F5FA),
    (0x1F610, 0x1F610), (0x1F687, 0x1F687), (0x1F68D, 0x1F68D), (0x1F691, 0x1F691),
    (0x1F694, 0x1F694), (0x1F698, 0x1F698), (0x1F6AD, 0x1F6AD), (0x1F6B2, 0x1F6B2),
    (0x1F6B9, 0x1F6BA), (0x1F6BC, 0x1F6BC), (0x1F6CB, 0x1F6CB), (0x1F6CD, 0x1F6CF),
    (0x1F6E0, 0x1F6E5), (0x1F6E9, 0x1F6E9), (0x1F6F0, 0x1F6F0), (0x1F6F3, 0x1F6F3)]

/-- Codes of the characters without a cell that keep Arabic letters apart. -/
def unjoinedRanges : List (Nat × Nat) := [
    (0x605, 0x605), (0x890, 0x891), (0x8E2, 0x8E2), (0x9BE, 0x9BE), (0x9D7, 0x9D7), (0xB3E, 0xB3E),
    (0xB57, 0xB57), (0xBBE, 0xBBE), (0xBD7, 0xBD7), (0xCC2, 0xCC2), (0xCD5, 0xCD6), (0xD3E, 0xD3E),
    (0xD4E, 0xD4E), (0xD57, 0xD57), (0xDCF, 0xDCF), (0xDDF, 0xDDF), (0x1160, 0x11FF),
    (0x180E, 0x180E), (0x1B35, 0x1B35), (0x200C, 0x200D), (0x2065, 0x2069), (0x302E, 0x302F),
    (0x3164, 0x3164), (0xA8FA, 0xA8FA), (0xD7B0, 0xD7C6), (0xD7CB, 0xD7FB), (0xFF9E, 0xFFA0),
    (0xFFF0, 0xFFF8), (0x111C2, 0x111C3), (0x1133E, 0x1133E), (0x11357, 0x11357),
    (0x114B0, 0x114B0), (0x114BD, 0x114BD), (0x115AF, 0x115AF), (0x11930, 0x11930),
    (0x1193F, 0x1193F), (0x11941, 0x11941), (0x11A3A, 0x11A3A), (0x11A84, 0x11A89),
    (0x11D46, 0x11D46), (0x11F02, 0x11F02), (0x1D165, 0x1D165), (0x1D16E, 0x1D172),
    (0xE0000, 0xE0000), (0xE0002, 0xE001F), (0xE0080, 0xE00FF), (0xE01F0, 0xE0FFF)]

/-- The joiner. -/
def joiner : Char := '\u200d'

/-- The sign that asks for the character before it as text. -/
def textSelector : Char := '\ufe0e'

/-- The sign that asks for the character before it as a picture. -/
def pictureSelector : Char := '\ufe0f'

/-- The frame of a key around the character before it. -/
def keycap : Char := '\u20e3'

/-- Whether a character is the flag that a sequence of tags can follow. -/
def isTaggedFlag (c : Char) : Bool := c.toNat == 0x1F3F4

/-- Whether a character is a letter in a sequence of tags. -/
def isTagLetter (c : Char) : Bool := 0xE0061 ≤ c.toNat && c.toNat ≤ 0xE007A

/-- Whether a character is a digit in a sequence of tags. -/
def isTagDigit (c : Char) : Bool := 0xE0030 ≤ c.toNat && c.toNat ≤ 0xE0039

/-- Whether a character ends a sequence of tags. -/
def isTagEnd (c : Char) : Bool := c.toNat == 0xE007F

/-- Whether a character is an indicator; two of them stand for a flag. -/
def isIndicator (c : Char) : Bool := 0x1F1E6 ≤ c.toNat && c.toNat ≤ 0x1F1FF

/-- Whether a character gives a skin tone to the pictograph before it. -/
def isTone (c : Char) : Bool := 0x1F3FB ≤ c.toNat && c.toNat ≤ 0x1F3FF

/-- Whether a character is shown as a picture unless text is asked for. -/
def isPicture (c : Char) : Bool := inRanges pictureRanges c.toNat

/-- Whether a character can take a skin tone. -/
def takesTone (c : Char) : Bool := inRanges tonedRanges c.toNat

/-- Whether a character is shown as a picture or as text, whichever is asked for. -/
def isSelectable (c : Char) : Bool := inRanges selectableRanges c.toNat

/-- Whether a picture takes one cell when it is asked for as text; squared ideographs do not. -/
def isNarrowAsText (c : Char) : Bool :=
  isPicture c && isSelectable c && !(0x1F200 ≤ c.toNat && c.toNat ≤ 0x1F2FF)

/-- Letters that the letter before them can be written together with.  Some do so only across a
joiner, and are `joined` when it is there. -/
inductive JoiningLetter where
  | alef
  | lamed (joined : Bool)
  | khmer
  | ya (joined : Bool)
  | yaVowel
  | tifinagh (joined : Bool)
  | tifinaghJoiner
  | secondTone
  | orkhonI (joined : Bool)
  deriving DecidableEq, Repr

/-- What stands behind a place in a text, as far as the character at the place can join with it.

Two or more `indicators` are not told apart.  In front of a joined picture they are: one, a flag of
two, or a flag and one more.  A sequence of tags before its end is letters, or digits and then
letters; the number of those that were met last is kept. -/
inductive Follower where
  | other
  | lineFeed
  | tone
  | indicator
  | indicators
  | picture
  | joinedPicture
  | joinedKeycap
  | joinedIndicator
  | joinedFlag
  | joinedFlagAndIndicator
  | tagLetters (count : Nat)
  | tagDigits (count : Nat)
  | letter (l : JoiningLetter)
  deriving DecidableEq, Repr

namespace JoiningLetter

/-- Codes of the forms of alef. -/
def alefRanges : List (Nat × Nat) :=
  [(0x622, 0x623), (0x625, 0x625), (0x627, 0x627), (0x671, 0x673), (0x675, 0x675), (0x773, 0x774),
    (0x870, 0x882)]

/-- Codes of the forms of lam. -/
def lamRanges : List (Nat × Nat) :=
  [(0x644, 0x644), (0x6B5, 0x6B8), (0x76A, 0x76A), (0x8A6, 0x8A6), (0x8C7, 0x8C7)]

/-- Codes of the Khmer letters that can be written below another. -/
def khmerRanges : List (Nat × Nat) :=
  [(0x1780, 0x1782), (0x1784, 0x1787), (0x1789, 0x178C), (0x178E, 0x1793), (0x1795, 0x1798),
    (0x179B, 0x179D), (0x17A0, 0x17A0), (0x17A2, 0x17A2), (0x17A7, 0x17A7), (0x17AB, 0x17AC),
    (0x17AF, 0x17AF)]

/-- Codes of the Tifinagh letters that can be joined. -/
def tifinaghRanges : List (Nat × Nat) := [(0x2D31, 0x2D65), (0x2D6F, 0x2D6F)]

/-- Codes of the characters that do not keep letters apart, beside the joiner. -/
def transparentRanges : List (Nat × Nat) :=
  [(0x34F, 0x34F), (0x17B4, 0x17B5), (0x180B, 0x180D), (0x180F, 0x180F), (0xFE00, 0xFE0F),
    (0xE0100, 0xE01EF)]

/-- The letter that a character is. -/
def ofChar? (c : Char) : Option JoiningLetter :=
  let n := c.toNat
  if n = 0x5DC then some (lamed false)
  else if inRanges alefRanges n then some alef
  else if inRanges khmerRanges n then some khmer
  else if n = 0x1A10 then some (ya false)
  else if inRanges tifinaghRanges n then some (tifinagh false)
  else if n = 0xA4FC ∨ n = 0xA4FD then some secondTone
  else if n = 0x10C03 then some (orkhonI false)
  else none

/-- The letter behind a joiner. -/
def afterJoiner : JoiningLetter → JoiningLetter
  | lamed _ => lamed true
  | ya _ => ya true
  | tifinagh _ => tifinagh true
  | orkhonI _ => orkhonI true
  | l => l

/-- Whether a character leaves alef within reach of the lam before it. -/
def isTransparentToAlef (c : Char) : Bool := charWidth c == 0 && !inRanges unjoinedRanges c.toNat

/-- What a character does in front of a letter it can join with: the cells it adds, fewer than none
when it takes back cells of the letter, and what then stands behind the place before it. -/
def before? (l : JoiningLetter) (c : Char) : Option (Int × Follower) :=
  if l ≠ alef ∧ c = joiner then some (0, .letter l.afterJoiner)
  else if l ≠ alef ∧ inRanges transparentRanges c.toNat then some (0, .letter l)
  else
    match l with
    | alef =>
      if inRanges lamRanges c.toNat then some (0, .other)
      else if isTransparentToAlef c then some (0, .letter alef)
      else none
    | lamed joined => if joined ∧ c.toNat = 0x5D0 then some (0, .other) else none
    | khmer => if c.toNat = 0x17D2 then some (-1, .other) else none
    | ya joined => if joined ∧ c.toNat = 0x1A17 then some (0, .letter yaVowel) else none
    | yaVowel => if c.toNat = 0x1A15 then some (0, .other) else none
    | tifinagh joined =>
      if c.toNat = 0x2D7F then some (1, .letter tifinaghJoiner)
      else if joined ∧ inRanges tifinaghRanges c.toNat then some (0, .other)
      else none
    | tifinaghJoiner => if inRanges tifinaghRanges c.toNat then some (-1, .other) else none
    | secondTone => if 0xA4F8 ≤ c.toNat ∧ c.toNat ≤ 0xA4FB then some (0, .other) else none
    | orkhonI joined => if joined ∧ c.toNat = 0x10C32 then some (0, .other) else none

end JoiningLetter

namespace Follower

/-- What a character on its own is to the character before it. -/
def ofChar (c : Char) : Follower :=
  if isIndicator c then indicator
  else if isTone c then tone
  else if isPicture c then picture
  else ((JoiningLetter.ofChar? c).map letter).getD other

/-- Whether this is a letter. -/
def isLetter : Follower → Bool
  | letter _ => true
  | _ => false

/-- Whether this is a picture behind a joiner, or such a picture with the frame of a key. -/
def isJoinedPicture : Follower → Bool
  | joinedPicture | joinedKeycap => true
  | _ => false

/-- What a joiner does in front of pictures. -/
def beforePicture? (c : Char) : Option (Int × Follower) :=
  if c = joiner then some (0, joinedPicture) else none

/-- What a character does in front of something it can join with: the cells it adds, fewer than none
when it takes back cells of what stands there, and what then stands behind the place before it. -/
def before? (f : Follower) (c : Char) : Option (Int × Follower) :=
  match f with
  | other | lineFeed | joinedKeycap => none
  | letter l => l.before? c
  | tone => if takesTone c then some (0, picture) else beforePicture? c
  | indicator => if isIndicator c then some (1, indicators) else none
  | indicators => if isIndicator c then some (1, indicators) else beforePicture? c
  | picture => beforePicture? c
  | joinedPicture =>
    if c = keycap then some (0, joinedKeycap)
    else if isIndicator c then some (1, joinedIndicator)
    else if isTone c then some (0, tone)
    else if isTagEnd c then some (0, tagLetters 0)
    else if isPicture c then some (0, picture)
    else none
  | joinedIndicator => if isIndicator c then some (-1, joinedFlag) else none
  | joinedFlag => if isIndicator c then some (3, joinedFlagAndIndicator) else beforePicture? c
  | joinedFlagAndIndicator => if isIndicator c then some (-1, joinedFlag) else beforePicture? c
  | tagLetters count =>
    if isTagLetter c ∧ count < 6 then some (0, tagLetters (count + 1))
    else if isTagDigit c ∧ count ≤ 4 then some (0, tagDigits 1)
    else if isTaggedFlag c ∧ 3 ≤ count then some (0, picture)
    else none
  | tagDigits count =>
    if isTagDigit c ∧ count < 3 then some (0, tagDigits (count + 1))
    else if isTaggedFlag c ∧ count = 3 then some (0, picture)
    else none

end Follower
end ScreenEditor

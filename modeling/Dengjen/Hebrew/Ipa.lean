import Dengjen.Core.Texts
import Mathlib.Data.List.Basic
import Mathlib.Data.List.ModifyLast

/-!
# The pronunciation of pointed Hebrew

A word is normalized, its marks are grouped with the letters they stand on, and its
letters are read from front to back into segments: the consonants before a vowel, the
vowel, and what is left after the last one. Shevas are then resolved and the segments
written out with a stress mark.

## Implementation notes

A text is the list of its characters. Normalization and the class of combining marks
are those of the `unicode_normalization` crate.
-/

namespace Dengjen.Hebrew

/-- What the `unicode_normalization` crate knows of characters. -/
structure Unicode where
  nfc : List Char → List Char
  isCombiningMark : Char → Bool

/-- The crate on texts of the Hebrew block and ASCII: no points are composed with their letters. -/
def Unicode.hebrew : Unicode where
  nfc := id
  isCombiningMark c :=
    '\u0591' ≤ c ∧ c ≤ '\u05C7' ∧ c ≠ '\u05BE' ∧ c ≠ '\u05C0' ∧ c ≠ '\u05C3' ∧ c ≠ '\u05C6'

/-! The letters and the points. -/

section Letters

def geresh : Char := '\u05F3'
def alef : Char := '\u05D0'
def bet : Char := '\u05D1'
def gimel : Char := '\u05D2'
def dalet : Char := '\u05D3'
def he : Char := '\u05D4'
def vav : Char := '\u05D5'
def zayin : Char := '\u05D6'
def het : Char := '\u05D7'
def tet : Char := '\u05D8'
def yod : Char := '\u05D9'
def kaf : Char := '\u05DB'
def kafFinal : Char := '\u05DA'
def lamed : Char := '\u05DC'
def mem : Char := '\u05DE'
def memFinal : Char := '\u05DD'
def nun : Char := '\u05E0'
def nunFinal : Char := '\u05DF'
def samekh : Char := '\u05E1'
def ayin : Char := '\u05E2'
def pe : Char := '\u05E4'
def peFinal : Char := '\u05E3'
def tsadi : Char := '\u05E6'
def tsadiFinal : Char := '\u05E5'
def qof : Char := '\u05E7'
def resh : Char := '\u05E8'
def shin : Char := '\u05E9'
def tav : Char := '\u05EA'

end Letters

section Points

def dagesh : Char := '\u05BC'
def shinDot : Char := '\u05C1'
def sinDot : Char := '\u05C2'
def sheva : Char := '\u05B0'
def hatafSegol : Char := '\u05B1'
def hatafPatah : Char := '\u05B2'
def hatafQamats : Char := '\u05B3'
def hiriq : Char := '\u05B4'
def tsere : Char := '\u05B5'
def segol : Char := '\u05B6'
def patah : Char := '\u05B7'
def qamats : Char := '\u05B8'
def holam : Char := '\u05B9'
def qubutz : Char := '\u05BB'
def qamatsQatan : Char := '\u05C7'

end Points

/-! ## Glyphs -/

/-- A base character, or a digraph that stands for one, with the marks on it. -/
structure Glyph where
  base : List Char
  marks : List Char
  deriving DecidableEq

namespace Glyph

/-- A character without marks. -/
def plain (base : Char) : Glyph := ⟨[base], []⟩

/-- The glyph carries a mark. -/
def has (g : Glyph) (mark : Char) : Bool := g.marks.contains mark

end Glyph

/-- A text without its cantillation marks. -/
def stripTaamim (s : List Char) : List Char :=
  s.filter fun c => ¬ (0x0591 ≤ c.toNat ∧ c.toNat ≤ 0x05AF)

/-- A mark goes to the last glyph, if there is one. -/
def addChar (unicode : Unicode) (glyphs : List Glyph) (c : Char) : List Glyph :=
  if unicode.isCombiningMark c then
    glyphs.modifyLast fun last => { last with marks := last.marks ++ [c] }
  else glyphs ++ [.plain c]

/-- The glyphs of a word, composed and without cantillation marks. -/
def iterGlyphs (unicode : Unicode) (word : List Char) : List Glyph :=
  (unicode.nfc (stripTaamim word)).foldl (addChar unicode) []

/-- The letters that sound otherwise before a geresh. -/
def gereshDigraphs : List (List Char × List Char) :=
  [([gimel, geresh], "d\u0361\u0292".toList), ([zayin, geresh], "\u0292".toList),
    ([tsadi, geresh], "t\u0361\u0283".toList)]

/-- Each letter that a geresh modifies becomes a digraph, with the marks of both. -/
def applyGereshDigraphs : List Glyph → List Glyph
  | [] => []
  | [g] => [g]
  | g :: next :: rest =>
      if next.base = [geresh] then
        match gereshDigraphs.lookup (g.base ++ next.base) with
        | some ipa =>
            ⟨"<IPA:".toList ++ ipa ++ ">".toList, g.marks ++ next.marks⟩ :: applyGereshDigraphs rest
        | none => g :: applyGereshDigraphs (next :: rest)
      else g :: applyGereshDigraphs (next :: rest)

/-- The glyphs of a word as they are read. -/
def glyphs (unicode : Unicode) (word : List Char) : List Glyph :=
  applyGereshDigraphs (iterGlyphs unicode word)

/-! ## Consonants -/

/-- The placeholder of alef and ayin. -/
def glt : List Char := "<GLT>".toList

/-- The letter that a final form is a form of. -/
def finalFormBase (c : Char) : Char :=
  if c = kafFinal then kaf
  else if c = memFinal then mem
  else if c = nunFinal then nun
  else if c = peFinal then pe
  else if c = tsadiFinal then tsadi
  else c

/-- The sound of a consonant with its marks. -/
def mapConsonant (base : Char) (marks : List Char) (isFinal : Bool) : List Char :=
  let b := finalFormBase base
  let has := fun m => marks.contains m
  if b = alef ∨ b = ayin then glt
  else if b = he then if isFinal ∧ ¬ has dagesh then [] else ['h']
  else if b = yod then ['j']
  else if b = vav then ['v']
  else if b = shin then if has shinDot then ['\u0283'] else if has sinDot then ['s'] else ['\u0283']
  else if b = bet then if has dagesh then ['b'] else ['v']
  else if b = kaf then if has dagesh then ['k'] else ['\u03C7']
  else if b = pe then if has dagesh then ['p'] else ['f']
  else if b = gimel then ['g']
  else if b = dalet then ['d']
  else if b = het then ['\u03C7']
  else if b = tet then ['t']
  else if b = lamed then ['l']
  else if b = mem then ['m']
  else if b = nun then ['n']
  else if b = samekh then ['s']
  else if b = tsadi then "t\u0361s".toList
  else if b = qof then ['k']
  else if b = resh then ['\u0281']
  else if b = tav then ['t']
  else if b = zayin then ['z']
  else []

/-- The sound that a digraph spells out. -/
def digraphIpa (base : List Char) : Option (List Char) :=
  (base.dropPrefix? "<IPA:".toList).bind fun ipa => ipa.dropSuffix? ">".toList

/-- The sound of a glyph's consonant. -/
def glyphConsonant (g : Glyph) (isFinal : Bool) : List Char :=
  match digraphIpa g.base with
  | some ipa => ipa
  | none => mapConsonant (g.base.head?.getD '\x00') g.marks isFinal

/-! ## Vowels -/

/-- The vowel of a glyph's points and whether it is a full one. -/
def mapBasicVowel (g : Glyph) : List Char × Bool :=
  if g.has qamatsQatan then (['o'], true)
  else if g.has qubutz then (['u'], true)
  else if g.has hiriq then (['i'], true)
  else if g.has tsere ∨ g.has segol then (['e'], true)
  else if g.has patah ∨ g.has qamats ∨ g.has hatafPatah then (['a'], true)
  else if g.has hatafSegol then (['e'], true)
  else if g.has hatafQamats then (['o'], true)
  else if g.has sheva then (['\u0259'], false)
  else ([], false)

/-- A vav that is read as u. -/
def isShuruk (g : Glyph) : Bool :=
  let otherVowelMarks := [holam, hiriq, tsere, segol, patah, qamats, qubutz, qamatsQatan, sheva,
    hatafSegol, hatafPatah, hatafQamats]
  g.base = [vav] ∧ g.has dagesh ∧ ¬ g.marks.any otherVowelMarks.contains

/-- A vav that is read as o. -/
def isHolamMale (g : Glyph) : Bool := g.base = [vav] ∧ g.has holam ∧ ¬ g.has dagesh

/-- One of the marks is a vowel mark. -/
def hasAnyVowelMark (marks : List Char) : Bool :=
  let vowelMarks := [sheva, hatafSegol, hatafPatah, hatafQamats, hiriq, tsere, segol, patah, qamats,
    holam, qubutz, qamatsQatan]
  marks.any vowelMarks.contains

/-- A hiriq with a bare yod behind it. -/
def isHiriqYod (curr : Glyph) : Option Glyph → Bool
  | none => false
  | some next => curr.has hiriq ∧ next.base = [yod] ∧ ¬ hasAnyVowelMark next.marks

/-! ## Segments -/

/-- Consonants, a vowel, and consonants that close it. -/
structure Segment where
  onset : List (List Char)
  nucleus : List Char
  coda : List (List Char)
  dagesh : Bool
  deriving DecidableEq

/-- Alef and ayin, and letters without a sound, do not begin a syllable. -/
def pushed (onset : List (List Char)) (cons : List Char) : List (List Char) :=
  if cons ≠ [] ∧ cons ≠ glt then onset ++ [cons] else onset

/-- A letter without a vowel waits for the next one. -/
def waiting (onset : List (List Char)) (cons : List Char) : List (List Char) :=
  if cons = glt then onset ++ [['\u0294']] else if cons ≠ [] then onset ++ [cons] else onset

/-- A segment before what is read behind it. -/
def emit (seg : Segment) (behind : List Segment × List (List Char)) :
    List Segment × List (List Char) :=
  (seg :: behind.1, behind.2)

@[simp] theorem emit_fst (seg : Segment) (behind : List Segment × List (List Char)) :
    (emit seg behind).1 = seg :: behind.1 := rfl

@[simp] theorem emit_snd (seg : Segment) (behind : List Segment × List (List Char)) :
    (emit seg behind).2 = behind.2 := rfl

/-- Read glyphs behind the consonants of `onset`: the segments, and the consonants behind them. -/
def readGlyphs (onset : List (List Char)) : List Glyph → List Segment × List (List Char)
  | [] => ([], onset)
  | g :: rest =>
      if isShuruk g then emit ⟨onset, ['u'], [], false⟩ (readGlyphs [] rest)
      else if isHiriqYod g rest.head? then
        match rest with
        | [] => ([], onset)
        -- The yod is read with the hiriq.
        | _ :: rest =>
            emit ⟨pushed onset (glyphConsonant g false), ['i'], [], false⟩ (readGlyphs [] rest)
      else if isHolamMale g then emit ⟨onset, ['o'], [], false⟩ (readGlyphs [] rest)
      else
        let cons := glyphConsonant g rest.isEmpty
        if (mapBasicVowel g).2 then
          emit ⟨pushed onset cons, (mapBasicVowel g).1, [], false⟩ (readGlyphs [] rest)
        else if g.has sheva then
          emit ⟨pushed onset cons, ['\u0259'], [], g.has dagesh⟩ (readGlyphs [] rest)
        else readGlyphs (waiting onset cons) rest

/-- The consonants behind the last vowel end its syllable. -/
def closed (segs : List Segment) (left : List (List Char)) : List Segment :=
  segs.modifyLast fun last => { last with coda := last.coda ++ left }

/-- The segments of a word, as the first pass reads them. -/
def wordToSegments (unicode : Unicode) (word : List Char) : List Segment :=
  let read := readGlyphs [] (glyphs unicode word)
  closed read.1 read.2

/-! ## Shevas -/

/-- A sheva is heard at the start of the word, under a dagesh and behind a silent sheva. The
consonants before a silent one end the segment before it. -/
def resolveSheva (read : List Segment × Bool) (current : Segment) : List Segment × Bool :=
  let before := read.1
  let prevSilencedShva := read.2
  if current.nucleus ≠ ['\u0259'] then (before ++ [current], false)
  else
    let hasPrevious := !before.isEmpty
    let dageshChazak := current.dagesh && hasPrevious
    let na := !hasPrevious || dageshChazak || prevSilencedShva
    if na then (before ++ [{ current with nucleus := ['e'] }], false)
    else (closed before current.onset ++ [{ current with onset := [], nucleus := [] }], true)

/-- A segment without a vowel closes the one before it. -/
def mergeSegment (merged : List Segment) (s : Segment) : List Segment :=
  if s.nucleus = [] then
    if merged = [] then [s] else closed merged s.onset
  else merged ++ [s]

/-- Both later passes: shevas are read or dropped, and what has no vowel is merged. -/
def resolveShevaAndQamats (segs : List Segment) : List Segment :=
  (segs.foldl resolveSheva ([], false)).1.foldl mergeSegment []

/-! ## Output -/

/-- The glottal stop. -/
def glottal : Char := '\u0294'
/-- The stress mark. -/
def stress : Char := '\u02C8'

/-- The last segment bears the stress, but of two of which the last is closed, the first. -/
def stressIndex (segs : List Segment) : Nat :=
  match segs with
  | [_, second] => if second.coda ≠ [] then 0 else segs.length - 1
  | _ => segs.length - 1

/-- A segment as it is written, with the stress mark inside where it is stressed. -/
def syllable (stressed : Bool) (s : Segment) : List Char :=
  if stressed then s.onset.flatten ++ [stress] ++ s.nucleus ++ s.coda.flatten
  else s.onset.flatten ++ s.nucleus ++ s.coda.flatten

/-- The segments as they are written, with one stress mark. -/
def syllabifyToIpa (segs : List Segment) : List Char :=
  segs.zipIdx.flatMap fun (s, idx) => syllable (idx = stressIndex segs) s

/-- The vowels of the output. -/
def isVowel (c : Char) : Bool := c ∈ ['a', 'e', 'i', 'o', 'u', '\u0259']

/-- A vowel comes next, or a stress mark and a vowel. -/
def followedByVowel (rest : List Char) : Bool :=
  let afterStress := if rest[0]? = some stress then 1 else 0
  rest[afterStress]?.any isVowel

/-- Glottal stops are kept before a vowel only. -/
def stripUnrealizedGlottalStops : List Char → List Char
  | [] => []
  | c :: rest =>
      if c ≠ glottal then c :: stripUnrealizedGlottalStops rest
      else if followedByVowel rest then c :: stripUnrealizedGlottalStops rest
      else stripUnrealizedGlottalStops rest

/-- How a word is pronounced. -/
def hebrewWordToIpa (unicode : Unicode) (word : List Char) : List Char :=
  let segs := resolveShevaAndQamats (wordToSegments unicode word)
  let ipa := stripUnrealizedGlottalStops (syllabifyToIpa segs)
  ipa.filter (· ≠ '\u0361')

/-- The words of a text. -/
def splitWhitespace (text : List Char) : List (List Char) :=
  (text.splitOnP isWhitespace).filter (· ≠ [])

/-- How a text is pronounced, word by word. -/
def hebrewToIpa (unicode : Unicode) (text : List Char) : List Char :=
  let words := splitWhitespace (unicode.nfc (stripTaamim text))
  [' '].intercalate (words.map (hebrewWordToIpa unicode))

/-- The sentences of a pointed text. -/
def phonemesFromDiacritized (unicode : Unicode) (diacritized : List Char) : List (List Char) :=
  let ipa := hebrewToIpa unicode diacritized
  if ipa = [] then [] else [ipa]

end Dengjen.Hebrew

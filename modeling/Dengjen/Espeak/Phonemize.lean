import Dengjen.Espeak.Clauses
import Dengjen.Espeak.LanguageSwitches
import Dengjen.General.Terminated

/-!
# Phonemizing a text with eSpeak-ng

`text_to_phonemes` goes through a text line by line. A line is phonemized with the
voice that its language names: eSpeak-ng is asked for one clause after another until
it has consumed the line, and the language switches and the stress markers are taken
out of the sentences.

## Implementation notes

eSpeak-ng is a parameter. Of its state only the selected voice decides what it makes
of a text, it leaves the voice alone while it reads, and it advances in the text
until it has none left, which is what its interface documents. A line, and what is
left of it, is given as its characters.
-/

namespace Dengjen.Espeak

/-- The message of an `ESpeakError`. -/
abbrev ESpeakError := String

/-- The result of a function of the crate. -/
abbrev ESpeakResult (α : Type*) := Except ESpeakError α

/-- eSpeak-ng with its states and its voices. -/
structure Engine (E V : Type*) where
  voice : E → V
  voiceByName : String → Option V
  /-- `espeak_SetVoiceByName`, with whether the status is OK. -/
  setVoiceByName : String → E → Bool × E
  translate : V → List Char → BitVec 32 → ClauseResult × Option (List Char)
  /-- `espeak_TextToPhonemesWithTerminator`: the clause, and the cursor unless it is null. -/
  textToPhonemes : E → List Char → BitVec 32 → (ClauseResult × Option (List Char)) × E
  setVoice_status : ∀ name state, (setVoiceByName name state).1 = (voiceByName name).isSome
  setVoice_voice : ∀ name state v, voiceByName name = some v →
    voice (setVoiceByName name state).2 = v
  text_eq : ∀ state text mode,
    (textToPhonemes state text mode).1 = translate (voice state) text mode
  text_voice : ∀ state text mode, voice (textToPhonemes state text mode).2 = voice state
  advances : ∀ v text mode rest, (translate v text mode).2 = some rest →
    rest.length < text.length

/-- The line without the line feed and the carriage return that end it. -/
def stripLineEnd (line : List Char) : List Char :=
  if line.getLast? = some '\n' then
    let line := line.dropLast
    if line.getLast? = some '\r' then line.dropLast else line
  else line

/-- `str::lines`. -/
def lines (text : List Char) : List (List Char) := (splitInclusive (· = '\n') text).map stripLineEnd

/-! ## Lines -/

theorem exists_body_of_mem_splitInclusive {text part : List Char}
    (h : part ∈ splitInclusive (· = '\n') text) :
    ∃ body, '\n' ∉ body ∧ (part = body ∨ part = body ++ ['\n']) := by
  obtain ⟨groups, rest, hterminated, hsplit⟩ :=
    exists_terminated_splitInclusive (fun c => decide (c = '\n')) text
  have hfresh : ∀ body : List Char, (∀ c ∈ body, ¬ (decide (c = '\n') = true)) → '\n' ∉ body :=
    fun body hbody hmem => hbody '\n' hmem (by decide)
  rw [hsplit, List.mem_append] at h
  rcases h with hgroup | hrest
  · obtain ⟨body, last, rfl, hlast, hbody⟩ := hterminated.group part hgroup
    obtain rfl := of_decide_eq_true hlast
    exact ⟨body, hfresh body hbody, .inr rfl⟩
  · split at hrest
    · cases hrest
    · obtain rfl := List.mem_singleton.mp hrest
      exact ⟨part, hfresh part hterminated.rest, .inl rfl⟩

theorem newline_notMem_lines {text line : List Char} (h : line ∈ lines text) :
    '\n' ∉ line := by
  obtain ⟨part, hpart, rfl⟩ := List.mem_map.mp h
  obtain ⟨body, hbody, hpart⟩ := exists_body_of_mem_splitInclusive hpart
  rw [stripLineEnd]
  rcases hpart with rfl | rfl
  · rw [if_neg]
    · exact hbody
    · exact fun hlast => hbody (List.mem_of_getLast? hlast)
  · rw [if_pos (List.getLast?_concat ..), List.dropLast_concat]
    dsimp only
    split
    · exact fun hmem => hbody (List.dropLast_subset _ hmem)
    · exact hbody

/-! ## Requests -/

/-- The arguments of a call. -/
structure Request where
  text : List Char
  language : String
  phonemeSeparator : Option Char
  removeLangSwitchFlags : Bool
  removeStress : Bool

/-- The mode of phonemes in IPA. -/
def espeakInitializePhonemeIpa : BitVec 32 := 0x0002

/-- The mode of a call, with its separator. -/
def phonemeMode (phonemeSeparator : Option Char) : BitVec 32 :=
  let separatorBits := (phonemeSeparator.map fun separator =>
    BitVec.ofNat 32 separator.toNat <<< 8).getD 0
  espeakInitializePhonemeIpa ||| separatorBits

/-- The error of a language without a voice. -/
def noVoiceNamed (language : String) : ESpeakError :=
  s!"eSpeak-ng has no voice named `{language}`"

/-- The error of a text that ends early. -/
def nulByte : ESpeakError := "Input holds a NUL byte, which eSpeak-ng cannot read"

/-- `CString::new` refuses these. -/
def HoldsNul (text : List Char) : Prop := Char.ofNat 0 ∈ text

instance (text : List Char) : Decidable (HoldsNul text) := inferInstanceAs (Decidable (_ ∈ _))

/-- The sentences, each of them stripped if that is enabled. -/
def stripMatches (enabled : Bool) (sentences : List (List Char))
    (strip : List Char → Option (List Char)) : Option (List (List Char)) :=
  if enabled then sentences.mapM strip else some sentences

/-- What becomes of the sentences of a line, `none` on a panic. -/
def stripSentences (request : Request) (sentences : List (List Char)) :
    Option (List (List Char)) := do
  let sentences ← stripMatches request.removeLangSwitchFlags sentences stripLanguageSwitches
  stripMatches request.removeStress sentences fun text => some (stripStressMarkers text)

variable {E V : Type*}

namespace Engine

variable (engine : Engine E V)

/-- The clauses that a voice makes of a text, up to the one that consumes it. -/
def clauses (v : V) (mode : BitVec 32) (text : List Char) : List ClauseResult :=
  match _h : (engine.translate v text mode).2 with
  | none => [(engine.translate v text mode).1]
  | some rest => (engine.translate v text mode).1 :: clauses v mode rest
termination_by text.length
decreasing_by exact engine.advances v text mode rest _h

/-- `phonemize_line` by itself, with the result of the initialization. A panic is `none`. -/
def phonemizeLine (init : ESpeakResult Unit) (request : Request) (line : List Char) :
    Option (ESpeakResult (List (List Char))) :=
  match init with
  | .error error => some (.error error)
  | .ok () =>
      if HoldsNul request.language.toList then some (.error (noVoiceNamed request.language))
      else
        match engine.voiceByName request.language with
        | none => some (.error (noVoiceNamed request.language))
        | some v =>
            if HoldsNul line then some (.error nulByte)
            else
              ((readClauses (engine.clauses v (phonemeMode request.phonemeSeparator) line)).bind
                (stripSentences request)).map .ok

/-- The lines one after another, up to one that fails. -/
def phonemizeLines (init : ESpeakResult Unit) (request : Request) :
    List (List Char) → Option (ESpeakResult (List (List (List Char))))
  | [] => some (.ok [])
  | line :: rest =>
      match engine.phonemizeLine init request line with
      | none => none
      | some (.error error) => some (.error error)
      | some (.ok sentences) =>
          (phonemizeLines init request rest).map fun result => result.map (sentences :: ·)

/-- `text_to_phonemes` by itself. -/
def textToPhonemesAlone (init : ESpeakResult Unit) (request : Request) :
    Option (ESpeakResult (List (List Char))) :=
  (engine.phonemizeLines init request (lines request.text)).map fun result =>
    result.map List.flatten

end Engine

end Dengjen.Espeak

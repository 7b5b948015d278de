import Dengjen.Espeak.Phonemize
import Dengjen.General.CriticalSections

/-!
# Phonemizing on many threads

eSpeak-ng has one voice for the whole process. A thread locks it for a line at a time:
it selects the voice of its language, reads the clauses of the line, and gives
eSpeak-ng back before the next line, so other threads select their voices in between.

## Implementation notes

`ESPEAKNG_INIT` is forced under the lock. The sample rate that `espeak_Initialize`
returns is arbitrary, and so is the state it leaves.
-/

namespace Dengjen.Espeak.Concurrency

open TransitionSystem CriticalSections Relation

variable {ι E V : Type*}

/-- The process-wide state: what `ESPEAKNG_INIT` holds, and eSpeak-ng. -/
structure Library (E : Type*) where
  init : Option (ESpeakResult Unit)
  state : E

/-- The text of a library that cannot be initialized. -/
def initFailure (sampleRate : Int) : ESpeakError :=
  s!"Failed to initialize eSpeak-ng, error code `{sampleRate}`. If its data files are " ++
    "installed somewhere non-standard, point `DENGJEN_ESPEAKNG_DATA_DIRECTORY` at the " ++
    "directory that holds `espeak-ng-data`."

/-- The library answers with its sample rate, or with an error. -/
def initEspeakng (sampleRate : Int) : ESpeakResult Unit :=
  if sampleRate > 0 then .ok () else .error (initFailure sampleRate)

/-- What a line has come to; a panic is `none`. -/
abbrev LineResult := Option (ESpeakResult (List (List Char)))

/-- Where a thread is in its line. -/
inductive LineStage
  | forcing
  | selecting
  | converting
  | reading (cursor : Option (List Char)) (reading : Reading)
  | leaving (result : LineResult)

/-- Where a call of `text_to_phonemes` is: it has the sentences of some lines and goes on with
others. -/
inductive Stage
  | between (done : List (List (List Char))) (todo : List (List Char))
  | line (done : List (List (List Char))) (line : List Char) (todo : List (List Char))
      (stage : LineStage)
  | returned (result : ESpeakResult (List (List Char)))
  | panicked

variable (engine : Engine E V)

/-- A step of a thread that has the lock. -/
inductive InLine (request : Request) (line : List Char) :
    LineStage × Library E → LineStage × Library E → Prop
  | runInit {state} (sampleRate : Int) (state' : E) :
      InLine request line (.forcing, ⟨none, state⟩)
        (.forcing, ⟨some (initEspeakng sampleRate), state'⟩)
  | initFailed {state error} :
      InLine request line (.forcing, ⟨some (.error error), state⟩)
        (.leaving (some (.error error)), ⟨some (.error error), state⟩)
  | forced {state} :
      InLine request line (.forcing, ⟨some (.ok ()), state⟩) (.selecting, ⟨some (.ok ()), state⟩)
  | languageHoldsNul {library} (h : HoldsNul request.language.toList) :
      InLine request line (.selecting, library)
        (.leaving (some (.error (noVoiceNamed request.language))), library)
  | voiceRejected {init state} (h : ¬ HoldsNul request.language.toList)
      (hstatus : (engine.setVoiceByName request.language state).1 = false) :
      InLine request line (.selecting, ⟨init, state⟩)
        (.leaving (some (.error (noVoiceNamed request.language))),
          ⟨init, (engine.setVoiceByName request.language state).2⟩)
  | voiceSelected {init state} (h : ¬ HoldsNul request.language.toList)
      (hstatus : (engine.setVoiceByName request.language state).1 = true) :
      InLine request line (.selecting, ⟨init, state⟩)
        (.converting, ⟨init, (engine.setVoiceByName request.language state).2⟩)
  | lineHoldsNul {library} (h : HoldsNul line) :
      InLine request line (.converting, library) (.leaving (some (.error nulByte)), library)
  | lineConverted {library} (h : ¬ HoldsNul line) :
      InLine request line (.converting, library) (.reading (some line) ⟨[], []⟩, library)
  | clauseRead {init state rest reading reading'}
      (h : reading.step (engine.textToPhonemes state rest
        (phonemeMode request.phonemeSeparator)).1.1 = some reading') :
      InLine request line (.reading (some rest) reading, ⟨init, state⟩)
        (.reading (engine.textToPhonemes state rest
            (phonemeMode request.phonemeSeparator)).1.2 reading',
          ⟨init, (engine.textToPhonemes state rest (phonemeMode request.phonemeSeparator)).2⟩)
  | clausePanics {init state rest reading}
      (h : reading.step (engine.textToPhonemes state rest
        (phonemeMode request.phonemeSeparator)).1.1 = none) :
      InLine request line (.reading (some rest) reading, ⟨init, state⟩)
        (.leaving none,
          ⟨init, (engine.textToPhonemes state rest (phonemeMode request.phonemeSeparator)).2⟩)
  | lineRead {library reading} :
      InLine request line (.reading none reading, library)
        (.leaving ((stripSentences request reading.finish).map .ok), library)

/-- A line goes on while it holds the lock. -/
inductive Inside (request : Request) : Stage × Library E → Stage × Library E → Prop
  | mk {done line todo stage stage' library library'}
      (h : InLine engine request line (stage, library) (stage', library')) :
      Inside request (.line done line todo stage, library) (.line done line todo stage', library')

/-- The lock is taken for the next line. -/
inductive Enter : Stage → Stage → Prop
  | mk (done line todo) : Enter (.between done (line :: todo)) (.line done line todo .forcing)

/-- A line that has its sentences, its error or its panic lets the lock go. -/
inductive Leave : Stage → Stage → Prop
  | ok (done line todo sentences) :
      Leave (.line done line todo (.leaving (some (.ok sentences))))
        (.between (done ++ [sentences]) todo)
  | error (done line todo error) :
      Leave (.line done line todo (.leaving (some (.error error)))) (.returned (.error error))
  | panic (done line todo) : Leave (.line done line todo (.leaving none)) .panicked

/-- A call whose lines are all read returns their sentences. -/
inductive Outside : Stage → Stage → Prop
  | mk (done) : Outside (.between done []) (.returned (.ok done.flatten))

/-- The calls, cut at the lock that their lines share. -/
def threads (requests : ι → Request) : Threads ι (Library E) Stage where
  outside _ := Outside
  enter _ := Enter
  inside i := Inside engine (requests i)
  leave _ := Leave

/-- eSpeak-ng has not been initialized, and every call is about to begin. -/
def Starts (requests : ι → Request) (before : Free ι (Library E) Stage) : Prop :=
  before.1.init = none ∧ before.2 = fun i => .between [] (lines (requests i).text)

/-! ### What a section does -/

/-- The initialization happens once. -/
def Keeps (library library' : Library E) : Prop :=
  ∀ init, library.init = some init → library'.init = some init

/-- eSpeak-ng has been initialized and has the voice of the language. -/
structure Selected (request : Request) (v : V) (library : Library E) : Prop where
  init : library.init = some (.ok ())
  language : ¬ HoldsNul request.language.toList
  named : engine.voiceByName request.language = some v
  voice : engine.voice library.state = v

/-- The clauses to come. -/
def remaining (v : V) (mode : BitVec 32) (cursor : Option (List Char)) : List ClauseResult :=
  match cursor with
  | none => []
  | some rest => engine.clauses v mode rest

/-- What a thread that has the lock knows of its line. -/
inductive Knows (request : Request) (line : List Char) : LineStage × Library E → Prop
  | forcing (library) : Knows request line (.forcing, library)
  | selecting {library} (h : library.init = some (.ok ())) :
      Knows request line (.selecting, library)
  | converting {library v} (h : Selected engine request v library) :
      Knows request line (.converting, library)
  | reading {library v cursor reading} (h : Selected engine request v library)
      (hline : ¬ HoldsNul line)
      (hreading : (remaining engine v (phonemeMode request.phonemeSeparator) cursor).foldlM
          Reading.step reading =
        (engine.clauses v (phonemeMode request.phonemeSeparator) line).foldlM
          Reading.step ⟨[], []⟩) :
      Knows request line (.reading cursor reading, library)
  | leaving {library init result} (h : library.init = some init)
      (hresult : result = engine.phonemizeLine init request line) :
      Knows request line (.leaving result, library)

variable {engine} {request : Request} {line : List Char} {stage stage' : LineStage}
  {library library' : Library E} {v : V}

theorem remaining_cons (mode : BitVec 32) (rest : List Char) :
    remaining engine v mode (some rest) =
      (engine.translate v rest mode).1 ::
        remaining engine v mode (engine.translate v rest mode).2 := by
  rw [remaining, Engine.clauses]
  split
  · next h => rw [h, remaining]
  · next h => rw [h, remaining]

theorem Selected.textToPhonemes {init : Option (ESpeakResult Unit)} {state : E}
    (h : Selected engine request v ⟨init, state⟩) (rest : List Char) (mode : BitVec 32) :
    (engine.textToPhonemes state rest mode).1 = engine.translate v rest mode ∧
      Selected engine request v ⟨init, (engine.textToPhonemes state rest mode).2⟩ := by
  refine ⟨?_, h.init, h.language, h.named, (engine.text_voice ..).trans h.voice⟩
  rw [engine.text_eq, ← h.voice]

theorem phonemizeLine_of_selected (h : Selected engine request v library)
    (hline : ¬ HoldsNul line) :
    engine.phonemizeLine (.ok ()) request line =
      ((readClauses (engine.clauses v (phonemeMode request.phonemeSeparator) line)).bind
        (stripSentences request)).map .ok := by
  simp only [Engine.phonemizeLine, if_neg h.language, h.named, if_neg hline]

theorem Knows.step (h : Knows engine request line (stage, library))
    (hstep : InLine engine request line (stage, library) (stage', library')) :
    Knows engine request line (stage', library') := by
  cases h with
  | forcing =>
      cases hstep with
      | runInit => exact .forcing _
      | initFailed => exact .leaving rfl rfl
      | forced => exact .selecting rfl
  | selecting hinit =>
      cases hstep with
      | languageHoldsNul hnul =>
          refine .leaving hinit ?_
          rw [Engine.phonemizeLine, if_pos hnul]
      | @voiceRejected init state hnul hstatus =>
          refine .leaving hinit ?_
          rw [engine.setVoice_status, Option.isSome_eq_false_iff, Option.isNone_iff_eq_none]
            at hstatus
          simp only [Engine.phonemizeLine, if_neg hnul, hstatus]
      | @voiceSelected init state hnul hstatus =>
          rw [engine.setVoice_status] at hstatus
          obtain ⟨v, hv⟩ := Option.isSome_iff_exists.mp hstatus
          exact .converting ⟨hinit, hnul, hv, engine.setVoice_voice _ _ v hv⟩
  | converting hselected =>
      cases hstep with
      | lineHoldsNul hnul =>
          refine .leaving hselected.init ?_
          simp only [Engine.phonemizeLine, if_neg hselected.language, hselected.named,
            if_pos hnul]
      | lineConverted hnul => exact .reading hselected hnul rfl
  | reading hselected hline hreading =>
      cases hstep with
      | @clauseRead init state rest reading reading' hclause =>
          obtain ⟨htext, hselected'⟩ := hselected.textToPhonemes rest
            (phonemeMode request.phonemeSeparator)
          refine .reading hselected' hline ?_
          rw [htext] at hclause ⊢
          rw [← hreading, remaining_cons, List.foldlM_cons, hclause]
          rfl
      | @clausePanics init state rest reading hclause =>
          obtain ⟨htext, -⟩ := hselected.textToPhonemes rest
            (phonemeMode request.phonemeSeparator)
          refine .leaving hselected.init ?_
          rw [htext] at hclause
          rw [phonemizeLine_of_selected hselected hline, readClauses, ← hreading, remaining_cons,
            List.foldlM_cons, hclause]
          rfl
      | @lineRead _ reading =>
          refine .leaving hselected.init ?_
          rw [phonemizeLine_of_selected hselected hline, readClauses, ← hreading]
          rfl
  | leaving => cases hstep

theorem InLine.keeps (hstep : InLine engine request line (stage, library) (stage', library')) :
    Keeps library library' := by
  cases hstep with
  | runInit => exact nofun
  | _ => exact fun _ => id

theorem Keeps.trans {library₁ library₂ library₃ : Library E} (h : Keeps library₁ library₂)
    (h' : Keeps library₂ library₃) : Keeps library₁ library₃ :=
  fun init hinit => h' init (h init hinit)

/-! ### Lines that are done -/

/-- The sentences of lines that have been phonemized. -/
def Done (engine : Engine E V) (library : Library E) (request : Request) :
    List (List Char) → List (List (List Char)) → Prop :=
  List.Forall₂ fun line sentences => ∃ init, library.init = some init ∧
    engine.phonemizeLine init request line = some (.ok sentences)

/-- What a call that does not have the lock has done. -/
def Progress (engine : Engine E V) (library : Library E) (request : Request) : Stage → Prop
  | .between done todo => ∃ before, lines request.text = before ++ todo ∧
      Done engine library request before done
  | .returned (.ok sentences) => ∃ done, Done engine library request (lines request.text) done ∧
      sentences = done.flatten
  | .returned (.error error) => ∃ before line todo done init,
      lines request.text = before ++ line :: todo ∧ Done engine library request before done ∧
      library.init = some init ∧ engine.phonemizeLine init request line = some (.error error)
  | .panicked => ∃ before line todo done init,
      lines request.text = before ++ line :: todo ∧ Done engine library request before done ∧
      library.init = some init ∧ engine.phonemizeLine init request line = none
  | .line .. => False

theorem Done.keeps {before : List (List Char)} {done : List (List (List Char))}
    (h : Done engine library request before done) (hkeeps : Keeps library library') :
    Done engine library' request before done := by
  refine h.imp fun line sentences => ?_
  rintro ⟨init, hinit, hline⟩
  exact ⟨init, hkeeps init hinit, hline⟩

theorem Progress.keeps {stage : Stage} (h : Progress engine library request stage)
    (hkeeps : Keeps library library') : Progress engine library' request stage := by
  match stage, h with
  | .between .., ⟨before, hlines, hdone⟩ => exact ⟨before, hlines, hdone.keeps hkeeps⟩
  | .returned (.ok _), ⟨done, hdone, heq⟩ => exact ⟨done, hdone.keeps hkeeps, heq⟩
  | .returned (.error _), ⟨before, line, todo, done, init, hlines, hdone, hinit, hline⟩ =>
      exact ⟨before, line, todo, done, init, hlines, hdone.keeps hkeeps, hkeeps init hinit, hline⟩
  | .panicked, ⟨before, line, todo, done, init, hlines, hdone, hinit, hline⟩ =>
      exact ⟨before, line, todo, done, init, hlines, hdone.keeps hkeeps, hkeeps init hinit, hline⟩

/-- The lines that are done count towards the result as they are. -/
theorem Done.phonemizeLines {before : List (List Char)} {done : List (List (List Char))}
    (h : Done engine library request before done) {init : ESpeakResult Unit}
    (hinit : ∀ stored, library.init = some stored → init = stored) (rest : List (List Char)) :
    engine.phonemizeLines init request (before ++ rest) =
      (engine.phonemizeLines init request rest).map fun result => result.map (done ++ ·) := by
  induction h with
  | nil =>
      rw [List.nil_append]
      cases engine.phonemizeLines init request rest with
      | none => rfl
      | some result => cases result <;> rfl
  | @cons line sentences before done hline _ ih =>
      obtain ⟨stored, hstored, hline⟩ := hline
      obtain rfl := hinit stored hstored
      rw [List.cons_append, Engine.phonemizeLines, hline]
      simp only [ih]
      cases engine.phonemizeLines init request rest with
      | none => rfl
      | some result => cases result <;> rfl

theorem Progress.alone {stage : Stage} (h : Progress engine library request stage)
    {init : ESpeakResult Unit} (hinit : ∀ stored, library.init = some stored → init = stored) :
    (∀ result, stage = .returned result →
      engine.textToPhonemesAlone init request = some result) ∧
    (stage = .panicked → engine.textToPhonemesAlone init request = none) := by
  match stage, h with
  | .between .., _ => exact ⟨nofun, nofun⟩
  | .returned (.ok sentences), ⟨done, hdone, heq⟩ =>
      refine ⟨fun result hresult => ?_, nofun⟩
      cases hresult
      have hlines := hdone.phonemizeLines hinit []
      rw [List.append_nil] at hlines
      rw [Engine.textToPhonemesAlone, hlines, heq]
      simp [Engine.phonemizeLines, Except.map]
  | .returned (.error error), ⟨before, line, todo, done, stored, hlines, hdone, hstored, hline⟩ =>
      refine ⟨fun result hresult => ?_, nofun⟩
      cases hresult
      obtain rfl := hinit stored hstored
      rw [Engine.textToPhonemesAlone, hlines, hdone.phonemizeLines hinit, Engine.phonemizeLines,
        hline]
      rfl
  | .panicked, ⟨before, line, todo, done, stored, hlines, hdone, hstored, hline⟩ =>
      refine ⟨nofun, fun _ => ?_⟩
      obtain rfl := hinit stored hstored
      rw [Engine.textToPhonemesAlone, hlines, hdone.phonemizeLines hinit, Engine.phonemizeLines,
        hline]
      rfl

/-! ### Any number of threads -/

variable {requests : ι → Request} {i : ι} {s t : State ι (Library E) Stage}

/-- A thread that has the lock is in a line of its own. -/
theorem knows_of_partial {before after : Stage × Library E}
    (h : Partial (threads engine requests) i before after) :
    ∃ done line todo stage, before.1 = .between done (line :: todo) ∧
      after.1 = .line done line todo stage ∧ Keeps before.2 after.2 ∧
      Knows engine (requests i) line (stage, after.2) := by
  obtain ⟨stage₀, henter, hrun⟩ := h
  obtain ⟨stage, library⟩ := before
  cases henter with
  | mk done line todo =>
      refine ⟨done, line, todo, ?_⟩
      induction hrun with
      | refl => exact ⟨.forcing, rfl, rfl, fun _ => id, .forcing _⟩
      | tail _ hinside ih =>
          obtain ⟨stage, -, hstage, hkeeps, hknows⟩ := ih
          cases hinside with
          | mk hstep =>
              cases hstage
              exact ⟨_, rfl, rfl, hkeeps.trans hstep.keeps, hknows.step hstep⟩

theorem section_progress {before after : Stage × Library E}
    (h : Section (threads engine requests) i before after)
    (hbefore : Progress engine before.2 (requests i) before.1) :
    Keeps before.2 after.2 ∧ Progress engine after.2 (requests i) after.1 := by
  obtain ⟨stage', hpart, hleave⟩ := h
  obtain ⟨done, line, todo, stage, hstage, rfl, hkeeps, hknows⟩ := knows_of_partial hpart
  rw [hstage] at hbefore
  obtain ⟨prior, hlines, hdone⟩ := hbefore
  refine ⟨hkeeps, ?_⟩
  obtain ⟨stage', library'⟩ := after
  cases hleave with
  | ok =>
      cases hknows with
      | @leaving _ init _ hinit hresult =>
          refine ⟨prior ++ [line], by rw [hlines, List.append_assoc]; rfl, ?_⟩
          exact List.rel_append (hdone.keeps hkeeps) (.cons ⟨init, hinit, hresult.symm⟩ .nil)
  | error =>
      cases hknows with
      | leaving hinit hresult =>
          exact ⟨prior, line, todo, done, _, hlines, hdone.keeps hkeeps, hinit, hresult.symm⟩
  | panic =>
      cases hknows with
      | leaving hinit hresult =>
          exact ⟨prior, line, todo, done, _, hlines, hdone.keeps hkeeps, hinit, hresult.symm⟩

variable [DecidableEq ι]

/-- How far all threads of a library have come. -/
def AllProgress (engine : Engine E V) (requests : ι → Request) (before : Free ι (Library E) Stage) :
    Prop :=
  ∀ i, Progress engine before.1 (requests i) (before.2 i)

theorem AllProgress.step {before after : Free ι (Library E) Stage} {i : ι}
    (h : AllProgress engine requests before)
    (hstep : AtomicStep (threads engine requests) before i after) :
    AllProgress engine requests after := by
  cases hstep with
  | outside hout =>
      refine (Function.forall_update_iff _
        fun j => Progress engine before.1 (requests j)).mpr ⟨?_, fun j _ => h j⟩
      have hi := h i
      generalize before.2 i = stage at hi hout
      cases hout with
      | mk done =>
          obtain ⟨prior, hlines, hdone⟩ := hi
          rw [List.append_nil] at hlines
          exact ⟨done, hlines ▸ hdone, rfl⟩
  | @whole l library hsection =>
      obtain ⟨hkeeps, hi⟩ := section_progress hsection (h i)
      exact (Function.forall_update_iff _
        fun j => Progress engine library (requests j)).mpr
          ⟨hi, fun j _ => (h j).keeps hkeeps⟩

theorem allProgress_of_reachable {before : Free ι (Library E) Stage}
    (h : Reachable (Starts requests) (AtomicStep (threads engine requests)) before) :
    AllProgress engine requests before := by
  refine h.invariant ?_ fun _ _ _ => AllProgress.step
  rintro ⟨library, thread⟩ ⟨-, hthread⟩ i
  simp only at hthread
  rw [hthread]
  exact ⟨[], rfl, .nil⟩

/-- An engine whose voices put their name before the text. -/
def naming : Engine String String where
  voice := id
  voiceByName name := if name = "en" ∨ name = "de" then some name else none
  setVoiceByName name state := if name = "en" ∨ name = "de" then (true, name) else (false, state)
  translate v text _ := (⟨some (v.toList ++ text), clauseTypeSentence⟩, none)
  textToPhonemes state text _ := ((⟨some (state.toList ++ text), clauseTypeSentence⟩, none), state)
  setVoice_status name state := by split <;> rfl
  setVoice_voice name state v h := by
    split at h
    · next hname => rw [if_pos hname]; exact Option.some.inj h
    · cases h
  text_eq _ _ _ := rfl
  text_voice _ _ _ := rfl
  advances _ _ _ _ h := by cases h

/-- A request of one line in a language. -/
def oneLine (language : String) : Request := ⟨['a'], language, none, false, true⟩

/-- Two threads with a line and a language each. -/
def twoLanguages : Bool → Request
  | true => oneLine "en"
  | false => oneLine "de"

end Dengjen.Espeak.Concurrency

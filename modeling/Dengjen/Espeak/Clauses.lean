import Dengjen.General.Terminated
import Mathlib.Data.BitVec

/-!
# Clauses and sentences

eSpeak-ng reads a line clause by clause. Each call returns the phonemes of a clause and
a terminator whose bits tell the intonation and whether a sentence ends with it.
`read_clauses` collects the clauses of a sentence and puts a mark after each of them.
-/

namespace Dengjen.Espeak

/-- The intonation of a statement. -/
def clauseIntonationFullStop : BitVec 32 := 0x00000000
/-- The intonation of a clause that goes on. -/
def clauseIntonationComma : BitVec 32 := 0x00001000
/-- The intonation of a question. -/
def clauseIntonationQuestion : BitVec 32 := 0x00002000
/-- The intonation of an exclamation. -/
def clauseIntonationExclamation : BitVec 32 := 0x00003000
/-- The bit of a clause that ends a sentence. -/
def clauseTypeSentence : BitVec 32 := 0x00080000

/-- The mark that a clause's intonation stands for. -/
def clauseBreakSuffix (terminator : BitVec 32) : List Char :=
  let intonation := terminator &&& 0x0000F000
  if intonation = clauseIntonationFullStop then ['.']
  else if intonation = clauseIntonationComma then [',']
  else if intonation = clauseIntonationQuestion then ['?']
  else if intonation = clauseIntonationExclamation then ['!']
  else []

/-- What a call of `espeak_TextToPhonemesWithTerminator` returns. The phonemes are `none` when
they cannot be read as a string, on which `into_string` panics. -/
structure ClauseResult where
  phonemes : Option (List Char)
  terminator : BitVec 32

/-- The variables of the loop in `read_clauses`. -/
structure Reading where
  sentences : List (List Char)
  pending : List Char

/-- Reads one more clause, which ends a sentence or leaves it open. -/
def Reading.step (reading : Reading) (clause : ClauseResult) : Option Reading := do
  let phonemes ← clause.phonemes
  let pending := reading.pending ++ phonemes ++ clauseBreakSuffix clause.terminator
  if clause.terminator &&& clauseTypeSentence = clauseTypeSentence then
    some ⟨reading.sentences ++ [pending], []⟩
  else some ⟨reading.sentences, pending⟩

/-- A sentence that was left open is the last one. -/
def Reading.finish (reading : Reading) : List (List Char) :=
  if reading.pending.isEmpty then reading.sentences else reading.sentences ++ [reading.pending]

/-- `read_clauses` on the results of the calls up to the one that moves the cursor to null. -/
def readClauses (clauses : List ClauseResult) : Option (List (List Char)) :=
  (clauses.foldlM Reading.step ⟨[], []⟩).map Reading.finish

/-- The phonemes and the terminator of a clause. -/
structure Clause where
  phonemes : List Char
  terminator : BitVec 32

namespace Clause

/-- What the library answers for a clause. -/
def returned (clause : Clause) : ClauseResult := ⟨some clause.phonemes, clause.terminator⟩

/-- The phonemes with the mark of the break after them. -/
def text (clause : Clause) : List Char := clause.phonemes ++ clauseBreakSuffix clause.terminator

/-- All bits of `CLAUSE_TYPE_SENTENCE` are set. -/
def EndsSentence (clause : Clause) : Prop :=
  ∀ i, clauseTypeSentence.getLsbD i → clause.terminator.getLsbD i

theorem endsSentence_iff (clause : Clause) :
    clause.EndsSentence ↔ clause.terminator &&& clauseTypeSentence = clauseTypeSentence := by
  constructor
  · intro h
    refine BitVec.eq_of_getLsbD_eq fun i _ => ?_
    rw [BitVec.getLsbD_and, Bool.and_eq_right_iff_imp]
    exact h i
  · intro h i hi
    rw [← h, BitVec.getLsbD_and, Bool.and_eq_true] at hi
    exact hi.1

instance (clause : Clause) : Decidable clause.EndsSentence :=
  decidable_of_iff' _ clause.endsSentence_iff

end Clause

/-- What the loop has read: the sentences are the texts of the groups that a clause has ended, and
the clauses after the last of these are pending. -/
def Reading.After (reading : Reading) (clauses : List Clause) : Prop :=
  ∃ groups rest, Terminated Clause.EndsSentence clauses groups rest ∧
    reading.sentences = groups.map (List.flatMap Clause.text) ∧
    reading.pending = rest.flatMap Clause.text

theorem Reading.step_returned (reading : Reading) (clause : Clause) :
    reading.step clause.returned =
      if clause.EndsSentence then
        some ⟨reading.sentences ++ [reading.pending ++ clause.text], []⟩
      else some ⟨reading.sentences, reading.pending ++ clause.text⟩ := by
  simp only [step, Clause.returned, Clause.endsSentence_iff, Clause.text, ← List.append_assoc]
  rfl

theorem Reading.After.step {reading : Reading} {clauses : List Clause} (h : reading.After clauses)
    (clause : Clause) :
    ∃ reading', reading.step clause.returned = some reading' ∧
      reading'.After (clauses ++ [clause]) := by
  obtain ⟨groups, rest, hgroups, hsentences, hpending⟩ := h
  rw [step_returned]
  split
  · next hends =>
      refine ⟨_, rfl, _, _, hgroups.push_end hends, ?_, rfl⟩
      rw [hsentences, hpending, List.map_append, List.map_singleton, List.flatMap_append,
        List.flatMap_singleton]
  · next hends =>
      refine ⟨_, rfl, _, _, hgroups.push hends, hsentences, ?_⟩
      rw [hpending, List.flatMap_append, List.flatMap_singleton]

theorem Reading.After.run {reading : Reading} {clauses : List Clause} (h : reading.After clauses)
    (more : List Clause) :
    ∃ reading', (more.map Clause.returned).foldlM Reading.step reading = some reading' ∧
      reading'.After (clauses ++ more) := by
  induction more generalizing reading clauses with
  | nil => exact ⟨reading, rfl, (List.append_nil clauses).symm ▸ h⟩
  | cons clause more ih =>
      obtain ⟨reading₁, hstep, h₁⟩ := h.step clause
      obtain ⟨reading₂, hrun, h₂⟩ := ih h₁
      refine ⟨reading₂, ?_, List.append_cons clauses clause more ▸ h₂⟩
      rw [List.map_cons, List.foldlM_cons, hstep]
      exact hrun

theorem Reading.finish_flatten (reading : Reading) :
    reading.finish.flatten = reading.sentences.flatten ++ reading.pending := by
  rw [finish]
  split
  · next hempty => rw [List.isEmpty_iff.mp hempty, List.append_nil]
  · rw [List.flatten_concat]

/-- The sentences are the clauses with their marks, none lost and none moved. Each of them ends
with a clause that ends a sentence and has no such clause before; only a rest that is not empty
makes one more. -/
theorem readClauses_returned (clauses : List Clause) :
    ∃ sentences groups rest, readClauses (clauses.map Clause.returned) = some sentences ∧
      sentences.flatten = clauses.flatMap Clause.text ∧
      Terminated Clause.EndsSentence clauses groups rest ∧
      sentences = groups.map (List.flatMap Clause.text) ++
        if rest.flatMap Clause.text = [] then [] else [rest.flatMap Clause.text] := by
  have hstart : Reading.After ⟨[], []⟩ [] := ⟨[], [], .nil _, rfl, rfl⟩
  obtain ⟨reading, hrun, groups, rest, hgroups, hsentences, hpending⟩ := hstart.run clauses
  refine ⟨reading.finish, groups, rest, ?_, ?_, hgroups, ?_⟩
  · rw [readClauses, hrun, Option.map_some]
  · rw [reading.finish_flatten, hsentences, hpending, hgroups.flatMap_eq]
    rfl
  · rw [Reading.finish, ← hsentences, ← hpending]
    split
    · next hempty => rw [if_pos (List.isEmpty_iff.mp hempty), List.append_nil]
    · next hne => rw [if_neg (mt List.isEmpty_iff.mpr hne)]

end Dengjen.Espeak

import Dengjen.Core.Error
import Dengjen.Core.HashMap

/-!
# Speaker maps

A voice's speakers are a map from ids to names. The two lookups are the trait's
default methods over what `get_speakers` returns.
-/

namespace Dengjen

/-- The names of speakers, by their ids. -/
abbrev SpeakerMap := HashMap Int String

/-- The default `speaker_id_to_name`. -/
def defaultSpeakerIdToName (speakers : DengjenResult (Option SpeakerMap)) (sid : Int) :
    DengjenResult (Option String) := do
  let speakers ← speakers
  pure (speakers.bind fun speakers => speakers.lookup sid)

namespace SpeakerMap

/-- The first id, in iteration order, whose speaker has the name. -/
def findId (speakers : SpeakerMap) (name : String) : Option Int :=
  speakers.iter.findSome? fun (sid, speakerName) =>
    if speakerName = name then some sid else none

theorem lookup_of_findId {speakers : SpeakerMap} {name : String} {sid : Int}
    (h : speakers.findId name = some sid) : speakers.lookup sid = some name := by
  obtain ⟨entry, hmem, hentry⟩ := List.exists_of_findSome?_eq_some h
  simp only [Option.ite_none_right_eq_some, Option.some.injEq] at hentry
  obtain ⟨hname, hsid⟩ := hentry
  rw [← HashMap.mem_iter, ← hname, ← hsid]
  exact hmem

/-- A name is found exactly when some speaker has it. -/
theorem exists_findId_iff {speakers : SpeakerMap} {name : String} :
    (∃ sid, speakers.findId name = some sid) ↔ ∃ sid, speakers.lookup sid = some name := by
  constructor
  · rintro ⟨sid, h⟩
    exact ⟨sid, lookup_of_findId h⟩
  · rintro ⟨sid, h⟩
    rw [← Option.isSome_iff_exists, findId, List.findSome?_isSome_iff]
    exact ⟨(sid, name), HashMap.mem_iter.mpr h, by simp⟩

/-- A name that only one id has is found under that id. -/
theorem findId_eq_of_unique {speakers : SpeakerMap} {name : String} {sid : Int}
    (h : speakers.lookup sid = some name)
    (hunique : ∀ other, speakers.lookup other = some name → other = sid) :
    speakers.findId name = some sid := by
  obtain ⟨found, hfound⟩ := exists_findId_iff.mpr ⟨sid, h⟩
  rw [hfound, hunique found (lookup_of_findId hfound)]

/-- No two names of a voice's configuration stand for one speaker. -/
def OneNamePerId (speakerIdMap : HashMap String Int) : Prop :=
  ∀ name name' sid, speakerIdMap.lookup name = some sid → speakerIdMap.lookup name' = some sid →
    name = name'

/-- The search through a reversed map answers like the map itself exactly when no two of
its names stand for one speaker. -/
theorem findId_reversed_iff {speakerIdMap : HashMap String Int} :
    (∀ name, findId speakerIdMap.reversed name = speakerIdMap.lookup name) ↔
      OneNamePerId speakerIdMap := by
  constructor
  · intro h name name' sid hname hname'
    have hfound := lookup_of_findId ((h name).trans hname)
    have hfound' := lookup_of_findId ((h name').trans hname')
    exact Option.some.inj (hfound.symm.trans hfound')
  · intro hinj name
    cases hname : speakerIdMap.lookup name with
    | some sid =>
        apply findId_eq_of_unique (HashMap.reversed_of_injective hinj hname)
        intro other hother
        exact Option.some.inj ((HashMap.lookup_of_reversed hother).symm.trans hname)
    | none =>
        cases hfound : findId speakerIdMap.reversed name with
        | none => rfl
        | some sid =>
            have hlost := HashMap.lookup_of_reversed (lookup_of_findId hfound)
            rw [hname] at hlost
            cases hlost

end SpeakerMap

/-- The default `speaker_name_to_id`. -/
def defaultSpeakerNameToId (speakers : DengjenResult (Option SpeakerMap)) (name : String) :
    DengjenResult (Option Int) := do
  let speakers ← speakers
  pure (speakers.bind fun speakers => speakers.findId name)

@[simp] theorem defaultSpeakerIdToName_ok (speakers : SpeakerMap) (sid : Int) :
    defaultSpeakerIdToName (.ok (some speakers)) sid = .ok (speakers.lookup sid) := rfl

@[simp] theorem defaultSpeakerNameToId_ok (speakers : SpeakerMap) (name : String) :
    defaultSpeakerNameToId (.ok (some speakers)) name = .ok (speakers.findId name) := rfl

/-- The error of a speaker that a voice does not have. -/
def unknownSpeaker (sid : Int) : DengjenError :=
  .invalidConfiguration s!"No speaker was found with the given id `{sid}`"

/-- The check of every backend before it stores a configuration. -/
def ensureKnownSpeaker (speakers : SpeakerMap) (speaker : Option Int) : DengjenResult Unit :=
  match speaker with
  | some sid => if sid ∈ speakers then .ok () else .error (unknownSpeaker sid)
  | none => .ok ()

theorem ensureKnownSpeaker_eq_ok_iff {speakers : SpeakerMap} {speaker : Option Int} :
    ensureKnownSpeaker speakers speaker = .ok () ↔ ∀ sid, speaker = some sid → sid ∈ speakers := by
  cases speaker with
  | none => simp [ensureKnownSpeaker]
  | some sid => simp [ensureKnownSpeaker]

end Dengjen

import Dengjen.General.TransitionSystem
import Dengjen.Grpc.SynthOptions

/-!
# The registry of loaded voices

`LoadVoice` looks its key up, loads the voice outside of any lock when the key is
unknown, and registers it in a second critical section. Any number of calls race,
also with requests that change the state behind a voice's locks. The outcome of
what happens outside the server, in the file system and in the loading of the
voice, is part of the step that observes it.
-/

namespace Dengjen.Grpc.Registry

open TransitionSystem

/-- The format of a voice's samples. -/
structure AudioFormat where
  sampleRate : Nat
  numChannels : Nat
  sampleWidth : Nat
  deriving DecidableEq

/-- What the server tells a client of a voice. -/
structure VoiceDescriptor where
  voiceKey : String
  synthesisOptions : Option SynthesisSettings
  language : Option String
  speakers : HashMap Int String
  audio : Option AudioFormat
  supportsStreamingOutput : Option Bool
  quality : Option String
  deriving DecidableEq

/-- `as u32` -/
def truncateU32 (value : Nat) : Nat := value % 2 ^ 32

section Model

variable {σ : Type*} (model : DengjenModel σ) (state : σ)

/-- The settings of a voice's default configuration. -/
def synthOptionsFromDefaultConfig : DengjenGrpcResult SynthesisSettings := do
  let defaultConfig ← ofModel (model.getDefaultSynthesisConfig state)
  let onUnsetSpeaker := .ok (some "Default")
  match defaultConfig with
  | some config => synthOptionsFromSynthesisConfig model state config onUnsetSpeaker
  | none => synthOptionsForConfiglessBackend onUnsetSpeaker

/-- The description of a voice, from what its model answers. -/
def buildVoiceInfo (voiceKey : String) : DengjenGrpcResult VoiceDescriptor := do
  let audioInfo ← ofModel (model.audioOutputInfo state)
  let speakers ← ofModel (model.getSpeakers state)
  let language ← ofModel (model.getLanguage state)
  let synthOptions ← synthOptionsFromDefaultConfig model state
  pure
    { voiceKey := voiceKey
      synthesisOptions := some synthOptions
      language := language
      speakers := speakers.getD ∅
      audio := some
        ⟨truncateU32 audioInfo.sampleRate, truncateU32 audioInfo.numChannels,
          truncateU32 audioInfo.sampleWidth⟩
      supportsStreamingOutput := some (model.supportsStreamingOutput state)
      quality := none }

end Model

/-- An entry of the registry. The allocation that holds the voice is its identity. -/
structure Registered where
  arc : Nat
  voice : Voice

/-- The description of a voice that is registered. -/
def Registered.info (registered : Registered) (voiceKey : String) :
    DengjenGrpcResult VoiceDescriptor :=
  buildVoiceInfo registered.voice.modelRef registered.voice.state voiceKey

/-- The voices of the server, by their keys. -/
abbrev RegisteredVoices := HashMap String Registered

/-- The description of a voice that is registered already. -/
def cachedVoiceInfo (voices : RegisteredVoices) (voiceKey : String) :
    Option (DengjenGrpcResult VoiceDescriptor) :=
  (voices.lookup voiceKey).map fun registered => registered.info voiceKey

/-- A voice that a concurrent load registered first wins. -/
def registerVoice (maxVoices : Nat) (voices : RegisteredVoices) (voiceKey : String)
    (candidate : Registered) : DengjenGrpcResult VoiceDescriptor × RegisteredVoices :=
  match voices.lookup voiceKey with
  | some registered => (registered.info voiceKey, voices)
  | none =>
      if voices.keys.length ≥ maxVoices then
        (.error (.resourceExhausted s!"Too many loaded voices; the limit is {maxVoices}"), voices)
      else (candidate.info voiceKey, voices.insert voiceKey candidate)

/-- The key of a config file, from what the file system says about its path. -/
def resolveVoiceKey (xxh3 : String → BitVec 64) (configPath : String) (isFile : Bool)
    (canonicalPath : Except String String) : DengjenGrpcResult String :=
  if isFile then
    match canonicalPath with
    | .ok path => .ok (xxh3 path).toHex
    | .error source => .error (.voiceNotFound
        s!"Could not resolve config path `{configPath}`: {source}")
  else .error (.voiceNotFound s!"Config file does not exists: `{configPath}`")

/-- What `run_blocking` makes of a task's end. -/
def runBlocking {α : Type*} : Outcome (DengjenGrpcResult α) → DengjenGrpcResult α
  | .returned result => result
  | .panicked message =>
      .error (.dengjenError (.operationError s!"Blocking task failed: {message}"))

/-- The error a client sees tells nothing of the files. -/
def sanitizeLoadError : DengjenGrpcError → DengjenGrpcError
  | .voiceNotFound _ => .voiceNotFound "The voice config was not found or is not readable"
  | .dengjenError error =>
      match error.kind with
      | .invalidConfiguration _ =>
          .dengjenError (.invalidConfiguration "The voice config is invalid")
      | _ => .dengjenError (.failedToLoadResource "The voice could not be loaded")
  | other => other

/-- Where a call to `LoadVoice` is. A call whose client is gone is dropped at an `await`. -/
inductive LoadCall
  | resolving (configPath : String)
  | checking (voiceKey : String)
  | acquiring (voiceKey : String)
  | loading (voiceKey : String)
  | registering (voiceKey : String) (model : Backend)
  | succeeded (voiceKey : String) (info : VoiceDescriptor)
  | failed (error : DengjenGrpcError)
  | dropped

/-- A call ends with a description or an error. -/
def LoadCall.ended (voiceKey : String) : DengjenGrpcResult VoiceDescriptor → LoadCall
  | .ok info => .succeeded voiceKey info
  | .error error => .failed error

/-- The registry and the calls on it. -/
structure State where
  voices : RegisteredVoices
  calls : List LoadCall

/-- What may happen: a call comes in, goes on, or loses its client. -/
inductive Action
  | loadVoice (configPath : String)
  | resolve (call : Nat) (isFile : Bool) (canonicalPath : Outcome (Except String String))
  | check (call : Nat)
  | acquirePermit (call : Nat) (granted : Bool)
  | load (call : Nat) (model : Outcome (DengjenResult Backend))
  | register (call : Nat)
  | disconnect (call : Nat)
  /-- A request changes the state behind the locks of a registered voice. -/
  | configure (voiceKey : String) (change : (backend : Backend) → backend.State → backend.State)

/-- The error of a request that finds no permit. -/
def tooManySynthesisTasks (limit : Nat) : DengjenGrpcError :=
  .resourceExhausted s!"Too many concurrent synthesis tasks; the limit is {limit}"

section Steps

variable (xxh3 : String → BitVec 64) (maxVoices maxConcurrentSynthesis : Nat)

/-- The state with one call gone on. -/
def State.setCall (s : State) (call : Nat) (next : LoadCall) : State :=
  { s with calls := s.calls.set call next }

/-- A call goes on where its lines let it. -/
def step (s : State) : Action → Option State
  | .loadVoice configPath => some { s with calls := s.calls ++ [.resolving configPath] }
  | .resolve call isFile canonicalPath =>
      match s.calls[call]? with
      | some (.resolving configPath) =>
          let resolved := match canonicalPath with
            | .returned path => .returned (resolveVoiceKey xxh3 configPath isFile path)
            | .panicked message => .panicked message
          match runBlocking resolved with
          | .ok voiceKey => some (s.setCall call (.checking voiceKey))
          | .error error => some (s.setCall call (.failed (sanitizeLoadError error)))
      | _ => none
  | .check call =>
      match s.calls[call]? with
      | some (.checking voiceKey) =>
          match cachedVoiceInfo s.voices voiceKey with
          | some info => some (s.setCall call (.ended voiceKey info))
          | none => some (s.setCall call (.acquiring voiceKey))
      | _ => none
  | .acquirePermit call granted =>
      match s.calls[call]? with
      | some (.acquiring voiceKey) =>
          if granted then some (s.setCall call (.loading voiceKey))
          else some (s.setCall call (.failed (tooManySynthesisTasks maxConcurrentSynthesis)))
      | _ => none
  | .load call model =>
      match s.calls[call]? with
      | some (.loading voiceKey) =>
          let loaded := match model with
            | .returned model => .returned (ofModel model)
            | .panicked message => .panicked message
          match runBlocking loaded with
          | .ok model => some (s.setCall call (.registering voiceKey model))
          | .error error => some (s.setCall call (.failed (sanitizeLoadError error)))
      | _ => none
  | .register call =>
      match s.calls[call]? with
      | some (.registering voiceKey model) =>
          let (info, voices) := registerVoice maxVoices s.voices voiceKey ⟨call, Voice.new model⟩
          some { voices := voices, calls := s.calls.set call (.ended voiceKey info) }
      | _ => none
  | .disconnect call =>
      match s.calls[call]? with
      | some (.resolving _) | some (.loading _) => some (s.setCall call .dropped)
      | _ => none
  | .configure voiceKey change =>
      match s.voices.lookup voiceKey with
      | some ⟨arc, backend, state⟩ =>
          some { s with voices := s.voices.insert voiceKey ⟨arc, backend, change backend state⟩ }
      | none => none

/-- No voice is registered and no call has come in. -/
def initial : State := ⟨∅, []⟩

end Steps

/-! ## What a step can do -/

section Effects

variable {xxh3 : String → BitVec 64} {maxVoices maxConcurrentSynthesis : Nat} {s t : State}

/-- A step lets no call succeed, answers one with the voice it finds, registers one, or changes
the state of a voice. -/
inductive Effect (maxVoices : Nat) (s : State) : State → Prop
  | quiet (calls : List LoadCall)
      (h : ∀ voiceKey info, .succeeded voiceKey info ∈ calls →
        .succeeded voiceKey info ∈ s.calls) :
      Effect maxVoices s { s with calls := calls }
  | answered (call : Nat) (voiceKey : String) (registered : Registered)
      (h : s.voices.lookup voiceKey = some registered) :
      Effect maxVoices s (s.setCall call (.ended voiceKey (registered.info voiceKey)))
  | registered (call : Nat) (voiceKey : String) (candidate : Registered) :
      Effect maxVoices s
        { voices := (registerVoice maxVoices s.voices voiceKey candidate).2
          calls := s.calls.set call
            (.ended voiceKey (registerVoice maxVoices s.voices voiceKey candidate).1) }
  | configured (voiceKey : String) (registered registered' : Registered)
      (h : s.voices.lookup voiceKey = some registered) (harc : registered'.arc = registered.arc)
      (hbackend : registered'.voice.backend = registered.voice.backend) :
      Effect maxVoices s { s with voices := s.voices.insert voiceKey registered' }

/-- A call that goes on, or ends without success. -/
theorem Effect.setCall (call : Nat) {next : LoadCall}
    (hnext : ∀ voiceKey info, next ≠ .succeeded voiceKey info) :
    Effect maxVoices s (s.setCall call next) := by
  apply Effect.quiet
  intro voiceKey info hmem
  rcases List.mem_or_eq_of_mem_set hmem with hold | hnew
  · exact hold
  · exact absurd hnew.symm (hnext voiceKey info)

theorem effect_of_step {action : Action}
    (h : step xxh3 maxVoices maxConcurrentSynthesis s action = some t) : Effect maxVoices s t := by
  cases action with
  | loadVoice configPath =>
      cases Option.some.inj h
      apply Effect.quiet
      intro voiceKey info hmem
      rcases List.mem_append.mp hmem with hold | hnew
      · exact hold
      · cases List.mem_singleton.mp hnew
  | resolve call isFile canonicalPath =>
      simp only [step] at h
      split at h
      · split at h <;> cases Option.some.inj h <;> exact .setCall call (by simp)
      · cases h
  | check call =>
      simp only [step] at h
      split at h
      · next voiceKey _ =>
          split at h
          · next info hinfo =>
              cases Option.some.inj h
              obtain ⟨registered, hlookup, rfl⟩ := Option.map_eq_some_iff.mp hinfo
              exact .answered call voiceKey registered hlookup
          · cases Option.some.inj h
            exact .setCall call (by simp)
      · cases h
  | acquirePermit call granted =>
      simp only [step] at h
      split at h
      · split at h <;> cases Option.some.inj h <;> exact .setCall call (by simp)
      · cases h
  | load call model =>
      simp only [step] at h
      split at h
      · split at h <;> cases Option.some.inj h <;> exact .setCall call (by simp)
      · cases h
  | register call =>
      simp only [step] at h
      split at h
      · next voiceKey model _ =>
          cases Option.some.inj h
          exact .registered call voiceKey ⟨call, Voice.new model⟩
      · cases h
  | disconnect call =>
      simp only [step] at h
      split at h
      · cases Option.some.inj h
        exact .setCall call (by simp)
      · cases Option.some.inj h
        exact .setCall call (by simp)
      · cases h
  | configure voiceKey change =>
      simp only [step] at h
      split at h
      · next arc backend state hlookup =>
          cases Option.some.inj h
          exact .configured voiceKey ⟨arc, backend, state⟩ ⟨arc, backend, change backend state⟩
            hlookup rfl rfl
      · cases h

end Effects

/-! ## Keys stay bound -/

section Bound

variable {maxVoices : Nat} {s t : State} {voices voices' : RegisteredVoices}

/-- Every key keeps the voice it is bound to. -/
def Keeps (voices voices' : RegisteredVoices) : Prop :=
  ∀ voiceKey registered, voices.lookup voiceKey = some registered →
    ∃ registered', voices'.lookup voiceKey = some registered' ∧
      registered'.arc = registered.arc ∧
      registered'.voice.backend = registered.voice.backend

theorem Keeps.refl (voices : RegisteredVoices) : Keeps voices voices :=
  fun _ registered h => ⟨registered, h, rfl, rfl⟩

theorem Keeps.trans {voices'' : RegisteredVoices} (h : Keeps voices voices')
    (h' : Keeps voices' voices'') : Keeps voices voices'' := by
  intro voiceKey registered hlookup
  obtain ⟨registered', hlookup', harc, hbackend⟩ := h voiceKey registered hlookup
  obtain ⟨registered'', hlookup'', harc', hbackend'⟩ := h' voiceKey registered' hlookup'
  exact ⟨registered'', hlookup'', harc'.trans harc, hbackend'.trans hbackend⟩

theorem keeps_insert {voiceKey : String} {registered : Registered}
    (h : ∀ old, voices.lookup voiceKey = some old →
      registered.arc = old.arc ∧ registered.voice.backend = old.voice.backend) :
    Keeps voices (voices.insert voiceKey registered) := by
  intro otherKey old hlookup
  by_cases hkey : otherKey = voiceKey
  · subst hkey
    exact ⟨registered, AList.lookup_insert _, h old hlookup⟩
  · exact ⟨old, (AList.lookup_insert_ne hkey).trans hlookup, rfl, rfl⟩

theorem keeps_registerVoice (voiceKey : String) (candidate : Registered) :
    Keeps voices (registerVoice maxVoices voices voiceKey candidate).2 := by
  rw [registerVoice]
  split
  · exact .refl voices
  · next hnone =>
      split
      · exact .refl voices
      · apply keeps_insert
        intro old hlookup
        rw [hnone] at hlookup
        cases hlookup

theorem Effect.keeps (h : Effect maxVoices s t) : Keeps s.voices t.voices := by
  cases h with
  | quiet calls _ => exact .refl _
  | answered call voiceKey registered _ => exact .refl _
  | registered call voiceKey candidate => exact keeps_registerVoice voiceKey candidate
  | configured voiceKey registered registered' hlookup harc hbackend =>
      apply keeps_insert
      intro old hold
      cases Option.some.inj (hlookup.symm.trans hold)
      exact ⟨harc, hbackend⟩

theorem length_keys_insert (voices : RegisteredVoices) (voiceKey : String)
    (registered : Registered) :
    (voices.insert voiceKey registered).keys.length =
      if voiceKey ∈ voices then voices.keys.length else voices.keys.length + 1 := by
  rw [AList.keys_insert, List.length_cons]
  split
  · next hmem =>
      have hmem' : voiceKey ∈ voices.keys := AList.mem_keys.mpr hmem
      rw [List.length_erase_of_mem hmem', Nat.sub_add_cancel (List.length_pos_of_mem hmem')]
  · next hmem => rw [List.erase_of_not_mem fun hmem' => hmem (AList.mem_keys.mp hmem')]

/-- The registry holds no more voices than it may. -/
def Bounded (maxVoices : Nat) (s : State) : Prop := s.voices.keys.length ≤ maxVoices

/-- A key is added only below the cap. -/
theorem Effect.bounded (h : Effect maxVoices s t) (hs : Bounded maxVoices s) :
    Bounded maxVoices t := by
  cases h with
  | quiet calls _ => exact hs
  | answered call voiceKey registered _ => exact hs
  | registered call voiceKey candidate =>
      simp only [Bounded, registerVoice]
      split
      · exact hs
      · next hnone =>
          split
          · exact hs
          · next hfull =>
              rw [length_keys_insert, if_neg (AList.lookup_eq_none.mp hnone)]
              omega
  | configured voiceKey registered registered' hlookup _ _ =>
      have hmem : voiceKey ∈ s.voices :=
        AList.lookup_isSome.mp (Option.isSome_of_eq_some hlookup)
      simpa only [Bounded, length_keys_insert, if_pos hmem] using hs

end Bound

/-! ## Every answer describes the voice of its key -/

section Answers

variable {maxVoices : Nat} {s t : State} {voices voices' : RegisteredVoices} {voiceKey : String}
  {info : VoiceDescriptor}

/-- A descriptor tells of the backend and nothing of its state. -/
theorem info_eq {registered registered' : Registered}
    (h : registered'.voice.backend = registered.voice.backend) (voiceKey : String) :
    registered'.info voiceKey = registered.info voiceKey := by
  obtain ⟨arc, backend, state⟩ := registered
  obtain ⟨arc', backend', state'⟩ := registered'
  cases h
  cases backend <;> rfl

/-- The descriptor is that of the voice registered under the key. -/
def Describes (voices : RegisteredVoices) (voiceKey : String) (info : VoiceDescriptor) : Prop :=
  ∃ registered, voices.lookup voiceKey = some registered ∧ registered.info voiceKey = .ok info

theorem Describes.keeps (h : Describes voices voiceKey info) (hkeeps : Keeps voices voices') :
    Describes voices' voiceKey info := by
  obtain ⟨registered, hlookup, hinfo⟩ := h
  obtain ⟨registered', hlookup', -, hbackend⟩ := hkeeps voiceKey registered hlookup
  exact ⟨registered', hlookup', (info_eq hbackend voiceKey).trans hinfo⟩

theorem ended_eq_succeeded {result : DengjenGrpcResult VoiceDescriptor} {otherKey : String}
    (h : LoadCall.ended otherKey result = .succeeded voiceKey info) :
    otherKey = voiceKey ∧ result = .ok info := by
  cases result with
  | ok found =>
      cases h
      exact ⟨rfl, rfl⟩
  | error error => cases h

/-- Whichever of the racing loads was first, a registration answers with its voice. -/
theorem describes_registerVoice {candidate : Registered}
    (h : (registerVoice maxVoices voices voiceKey candidate).1 = .ok info) :
    Describes (registerVoice maxVoices voices voiceKey candidate).2 voiceKey info := by
  rw [registerVoice] at h ⊢
  split at h
  · next registered hlookup => exact ⟨registered, hlookup, h⟩
  · split at h
    · cases h
    · next hroom =>
        rw [if_neg hroom]
        exact ⟨candidate, AList.lookup_insert _, h⟩

/-- Every call that succeeded described the voice that its key is bound to. -/
def AllAnswered (s : State) : Prop :=
  ∀ voiceKey info, .succeeded voiceKey info ∈ s.calls → Describes s.voices voiceKey info

theorem Effect.allAnswered (h : Effect maxVoices s t) (hs : AllAnswered s) : AllAnswered t := by
  have hkept : ∀ voiceKey info, .succeeded voiceKey info ∈ s.calls →
      Describes t.voices voiceKey info :=
    fun voiceKey info hmem => (hs voiceKey info hmem).keeps h.keeps
  intro voiceKey info hmem
  cases h with
  | quiet calls hcalls => exact hkept voiceKey info (hcalls voiceKey info hmem)
  | answered call otherKey registered hlookup =>
      rcases List.mem_or_eq_of_mem_set hmem with hold | hnew
      · exact hkept voiceKey info hold
      · obtain ⟨rfl, hinfo⟩ := ended_eq_succeeded hnew.symm
        exact ⟨registered, hlookup, hinfo⟩
  | registered call otherKey candidate =>
      rcases List.mem_or_eq_of_mem_set hmem with hold | hnew
      · exact hkept voiceKey info hold
      · obtain ⟨rfl, hinfo⟩ := ended_eq_succeeded hnew.symm
        exact describes_registerVoice hinfo
  | configured otherKey registered registered' _ _ _ => exact hkept voiceKey info hmem

end Answers

/-- In every state that racing calls reach, at most `max_voices` keys are registered and every
call that has succeeded on a key has returned the descriptor of the voice registered under it;
no step removes a key or binds it to another voice. -/
theorem voice_registry (xxh3 : String → BitVec 64) (maxVoices maxConcurrentSynthesis : Nat) :
    (∀ s, Reachable (· = initial) (steps (step xxh3 maxVoices maxConcurrentSynthesis)) s →
      s.voices.keys.length ≤ maxVoices ∧
        ∀ voiceKey info, .succeeded voiceKey info ∈ s.calls →
          Describes s.voices voiceKey info) ∧
    ∀ s actions t, Run (steps (step xxh3 maxVoices maxConcurrentSynthesis)) s actions t →
      Keeps s.voices t.voices := by
  constructor
  · intro s hs
    have hbounded : Bounded maxVoices s := by
      apply hs.invariant
      · rintro _ rfl
        exact Nat.zero_le _
      · intro s action t hi h
        exact (effect_of_step h).bounded hi
    have hanswered : AllAnswered s := by
      apply hs.invariant
      · rintro _ rfl voiceKey info hmem
        cases hmem
      · intro s action t hi h
        exact (effect_of_step h).allAnswered hi
    exact ⟨hbounded, hanswered⟩
  · intro s actions t run
    induction run with
    | nil s => exact .refl _
    | cons head _ ih => exact (effect_of_step head).keeps.trans ih

end Dengjen.Grpc.Registry

import Dengjen.Capi.SpeakEvents
import Dengjen.General.Layouts

/-!
# The parameters of a speak call across the C boundary

A binding lays the parameters out in memory, and `read_params` copies as many of
their bytes as the caller declares. The Go binding uses the struct of the header, the
Java binding a layout of its own with the padding written out.

## Implementation notes

Addresses are of 64 bits and numbers are little-endian, on both sides. The callback
and the user data are addresses.
-/

namespace Dengjen.Bindings.Params

open Capi Layouts

/-! ## The struct of the C API -/

/-- A byte. -/
def u8Field : Field := ⟨1, 1⟩
/-- A number of 32 bits, signed or not. -/
def u32Field : Field := ⟨4, 4⟩
/-- An address. -/
def pointerField : Field := ⟨8, 8⟩

/-- `struct_size`, `mode`, `rate`, `volume`, `pitch`, `appended_silence_ms`, `callback`,
`nonblocking`, `user_data` -/
def synthesisParamsFields : List Field :=
  [u32Field, u32Field, u8Field, u8Field, u8Field, u32Field, pointerField, u8Field, pointerField]

/-- `SYNTHESIS_PARAMS_V1_SIZE`: where `user_data` ends. -/
def synthesisParamsV1Size : Nat := 40

theorem extent_synthesisParamsFields : extent 0 synthesisParamsFields = synthesisParamsV1Size := rfl

/-- The fields of the struct, in its order. -/
structure SynthesisParams where
  structSize : UInt32
  mode : Int32
  rate : UInt8
  volume : UInt8
  pitch : UInt8
  appendedSilenceMs : UInt32
  callback : UInt64
  nonblocking : UInt8
  userData : UInt64
  deriving DecidableEq

namespace SynthesisParams

/-- The fields of a struct in memory. -/
def ofImage (image : List UInt8) : SynthesisParams :=
  let field (index : Nat) : Nat := ofLeBytes ((decode 0 synthesisParamsFields image).getD index [])
  { structSize := .ofNat (field 0)
    mode := (UInt32.ofNat (field 1)).toInt32
    rate := .ofNat (field 2)
    volume := .ofNat (field 3)
    pitch := .ofNat (field 4)
    appendedSilenceMs := .ofNat (field 5)
    callback := .ofNat (field 6)
    nonblocking := .ofNat (field 7)
    userData := .ofNat (field 8) }

/-- The bytes of each field. -/
def values (params : SynthesisParams) : List (List UInt8) :=
  [leBytes 4 params.structSize.toNat, leBytes 4 params.mode.toUInt32.toNat,
    leBytes 1 params.rate.toNat, leBytes 1 params.volume.toNat, leBytes 1 params.pitch.toNat,
    leBytes 4 params.appendedSilenceMs.toNat, leBytes 8 params.callback.toNat,
    leBytes 1 params.nonblocking.toNat, leBytes 8 params.userData.toNat]

/-- What a speak call makes of its parameters. -/
def speakParams (params : SynthesisParams) : SpeakEvents.SynthesisParams where
  mode := params.mode.toInt
  rate := params.rate
  volume := params.volume
  pitch := params.pitch
  appendedSilenceMs := params.appendedSilenceMs.toNat

theorem fits_values (params : SynthesisParams) : Fits synthesisParamsFields params.values := by
  repeat' constructor

theorem ofImage_of_decode {image : List UInt8} {params : SynthesisParams}
    (h : decode 0 synthesisParamsFields image = params.values) : ofImage image = params := by
  have hbyte : ∀ value : UInt8, ofLeBytes (leBytes 1 value.toNat) = value.toNat :=
    fun value => ofLeBytes_leBytes value.toNat_lt
  have hint : ∀ value : UInt32, ofLeBytes (leBytes 4 value.toNat) = value.toNat :=
    fun value => ofLeBytes_leBytes value.toNat_lt
  have haddress : ∀ value : UInt64, ofLeBytes (leBytes 8 value.toNat) = value.toNat :=
    fun value => ofLeBytes_leBytes value.toNat_lt
  obtain ⟨structSize, mode, rate, volume, pitch, appendedSilenceMs, callback, nonblocking,
    userData⟩ := params
  simp only [ofImage, h, values, List.getD_cons_zero, List.getD_cons_succ, hbyte, hint, haddress,
    UInt8.ofNat_toNat, UInt32.ofNat_toNat, UInt64.ofNat_toNat, Int32.toInt32_toUInt32]

end SynthesisParams

/-- Zeroed memory of the struct's size, once its fields are stored. -/
theorem putAll_values (params : SynthesisParams) :
    putAll (List.replicate synthesisParamsV1Size 0) (offsets 0 synthesisParamsFields)
        params.values = encode 0 0 synthesisParamsFields params.values := by
  have hstored : putAll ([] ++ List.replicate synthesisParamsV1Size 0)
      (offsets 0 synthesisParamsFields) params.values =
        [] ++ encode 0 0 synthesisParamsFields params.values :=
    putAll_zeroes params.fits_values List.length_nil
      (extent_synthesisParamsFields.trans (Nat.zero_add _).symm)
  rwa [List.nil_append, List.nil_append] at hstored

/-- `read_params` of a library whose struct has these fields. -/
def readParams (fields : List Field) : Option (List UInt8) → DengjenFFIResult (List UInt8)
  | none => .error (.nullPointer "params")
  | some image =>
      let declared := ofLeBytes (image.take 4)
      if declared < synthesisParamsV1Size then
        .error ⟨ErrorCodes.invalidConfiguration,
          s!"params.struct_size is {declared}, but at least {synthesisParamsV1Size} bytes " ++
            "are required; set it to sizeof(SynthesisParams)"⟩
      else .ok (copied 0 (totalSize fields) declared image)

/-- A caller's struct in its memory: it is no larger than it says. -/
def Truthful (image : List UInt8) : Prop := ofLeBytes (image.take 4) ≤ image.length

/-- Whatever versions the library and its caller are of, the fields of this one are read as they
were written. -/
theorem decode_readParams (later : List Field) {image : List UInt8} (htrue : Truthful image)
    (hdeclared : synthesisParamsV1Size ≤ ofLeBytes (image.take 4)) :
    ∃ read, readParams (synthesisParamsFields ++ later) (some image) = .ok read ∧
      decode 0 synthesisParamsFields read = decode 0 synthesisParamsFields image := by
  refine ⟨_, if_neg (Nat.not_lt.mpr hdeclared), ?_⟩
  exact decode_copied hdeclared extent_le_totalSize_append htrue

/-- A caller of this version leaves the fields of later ones zero. -/
theorem decode_readParams_append (later : List Field) {image : List UInt8} (htrue : Truthful image)
    (hdeclared : ofLeBytes (image.take 4) = synthesisParamsV1Size) :
    ∃ read, readParams (synthesisParamsFields ++ later) (some image) = .ok read ∧
      decode 0 (synthesisParamsFields ++ later) read = decode 0 synthesisParamsFields image ++
        later.map fun field => List.replicate field.size 0 := by
  refine ⟨_, if_neg (Nat.not_lt.mpr hdeclared.ge), ?_⟩
  exact decode_copied_append hdeclared.symm (Nat.le_add_right _ _) htrue

/-- A caller of this version, whose memory may go on behind its struct. -/
def image (params : SynthesisParams) (beyond : List UInt8) : List UInt8 :=
  encode 0 0 synthesisParamsFields params.values ++ beyond

theorem declared_image (params : SynthesisParams) (beyond : List UInt8) :
    ofLeBytes ((image params beyond).take 4) = params.structSize.toNat := by
  have hfirst : (image params beyond).take 4 = leBytes 4 params.structSize.toNat := by
    rw [image, SynthesisParams.values, synthesisParamsFields, encode, List.append_assoc,
      List.append_assoc]
    exact List.take_left' (length_leBytes 4 _)
  rw [hfirst]
  exact ofLeBytes_leBytes params.structSize.toNat_lt

/-- A library with the fields of this version and later ones reads the parameters, and zeroes. -/
def Reads (later : List Field) (memory : List UInt8) (params : SynthesisParams) : Prop :=
  ∃ read, readParams (synthesisParamsFields ++ later) (some memory) = .ok read ∧
    SynthesisParams.ofImage read = params ∧
    decode 0 (synthesisParamsFields ++ later) read =
      params.values ++ later.map fun field => List.replicate field.size 0

theorem reads_image {params : SynthesisParams} (h : params.structSize = 40) (later : List Field)
    (beyond : List UInt8) : Reads later (image params beyond) params := by
  have hdeclared : ofLeBytes ((image params beyond).take 4) = synthesisParamsV1Size := by
    rw [declared_image, h]
    rfl
  have htrue : Truthful (image params beyond) := by
    have hlength : (encode 0 0 synthesisParamsFields params.values).length + 0 =
        extent 0 synthesisParamsFields := length_encode params.fits_values
    rw [Nat.add_zero, extent_synthesisParamsFields] at hlength
    rw [Truthful, hdeclared, image, List.length_append, hlength]
    exact Nat.le_add_right _ _
  have hvalues : decode 0 synthesisParamsFields (image params beyond) = params.values :=
    decode_encode params.fits_values beyond
  obtain ⟨read, hread, hdecode⟩ := decode_readParams_append later htrue hdeclared
  obtain ⟨_, hsame, hfields⟩ := decode_readParams later htrue hdeclared.ge
  cases Except.ok.inj (hread.symm.trans hsame)
  rw [hvalues] at hdecode hfields
  exact ⟨read, hread, SynthesisParams.ofImage_of_decode hfields, hdecode⟩

/-! ## The Java binding -/

namespace Java

/-- A part of a struct's layout. -/
inductive Member
  | named (name : String) (size : Nat)
  | paddingLayout (size : Nat)

/-- The size of a layout. -/
def byteSize : List Member → Nat
  | [] => 0
  | .named _ size :: members | .paddingLayout size :: members => size + byteSize members

/-- Where a member begins. -/
def byteOffset (name : String) : List Member → Nat
  | [] => 0
  | .named other size :: members => if other = name then 0 else size + byteOffset name members
  | .paddingLayout size :: members => size + byteOffset name members

/-- `DengjenLayouts.SYNTHESIS_PARAMS` -/
def synthesisParamsLayout : List Member :=
  [.named "struct_size" 4, .named "mode" 4, .named "rate" 1, .named "volume" 1, .named "pitch" 1,
    .paddingLayout 1, .named "appended_silence_ms" 4, .named "callback" 8, .named "nonblocking" 1,
    .paddingLayout 7, .named "user_data" 8]

/-- The modes of the binding. -/
inductive SynthesisMode
  | lazy
  | parallel
  | realtime
  | batched
  deriving DecidableEq

/-- The number that the library uses for a mode. -/
def SynthesisMode.value : SynthesisMode → Int32
  | lazy => 0
  | parallel => 1
  | realtime => 2
  | batched => 3

/-- The values that the binding lets through. -/
def InRange (value : Int32) : Prop := 0 ≤ value ∧ value ≤ 100

/-- The record, as its constructor lets it be. -/
structure SynthesisParams where
  mode : SynthesisMode
  rate : Int32
  volume : Int32
  pitch : Int32
  appendedSilenceMs : Int32
  nonblocking : Bool
  appendedSilenceMs_nonneg : 0 ≤ appendedSilenceMs
  rate_inRange : InRange rate
  volume_inRange : InRange volume
  pitch_inRange : InRange pitch

/-- `SynthesisParamsMarshaller.allocate`. The arena gives out zeroed memory. -/
def allocate (params : SynthesisParams) (callback userData : UInt64) : List UInt8 :=
  let set (image : List UInt8) (name : String) (bytes : List UInt8) : List UInt8 :=
    put image (byteOffset name synthesisParamsLayout) bytes
  let cParams := List.replicate (byteSize synthesisParamsLayout) 0
  let cParams := set cParams "struct_size" (leBytes 4 (byteSize synthesisParamsLayout))
  let cParams := set cParams "mode" (leBytes 4 params.mode.value.toUInt32.toNat)
  let cParams := set cParams "rate" (leBytes 1 params.rate.toUInt32.toUInt8.toNat)
  let cParams := set cParams "volume" (leBytes 1 params.volume.toUInt32.toUInt8.toNat)
  let cParams := set cParams "pitch" (leBytes 1 params.pitch.toUInt32.toUInt8.toNat)
  let cParams := set cParams "appended_silence_ms"
    (leBytes 4 params.appendedSilenceMs.toUInt32.toNat)
  let cParams := set cParams "callback" (leBytes 8 callback.toNat)
  let cParams := set cParams "nonblocking" (leBytes 1 params.nonblocking.toUInt8.toNat)
  set cParams "user_data" (leBytes 8 userData.toNat)

/-- The layout has its fields where the struct has them, and is as large. -/
theorem byteOffset_synthesisParamsLayout :
    ["struct_size", "mode", "rate", "volume", "pitch", "appended_silence_ms", "callback",
        "nonblocking", "user_data"].map (fun name => byteOffset name synthesisParamsLayout) =
      offsets 0 synthesisParamsFields := by
  decide

theorem byteSize_synthesisParamsLayout : byteSize synthesisParamsLayout = synthesisParamsV1Size :=
  rfl

/-- The struct that the library is to see. -/
def SynthesisParams.toC (params : SynthesisParams) (callback userData : UInt64) :
    Params.SynthesisParams where
  structSize := 40
  mode := params.mode.value
  rate := params.rate.toUInt32.toUInt8
  volume := params.volume.toUInt32.toUInt8
  pitch := params.pitch.toUInt32.toUInt8
  appendedSilenceMs := params.appendedSilenceMs.toUInt32
  callback := callback
  nonblocking := params.nonblocking.toUInt8
  userData := userData

theorem allocate_eq (params : SynthesisParams) (callback userData : UInt64) :
    allocate params callback userData =
      encode 0 0 synthesisParamsFields (params.toC callback userData).values := by
  have hputs : allocate params callback userData =
      putAll (List.replicate (byteSize synthesisParamsLayout) 0)
        (["struct_size", "mode", "rate", "volume", "pitch", "appended_silence_ms", "callback",
          "nonblocking", "user_data"].map fun name => byteOffset name synthesisParamsLayout)
        (params.toC callback userData).values := rfl
  rw [hputs, byteOffset_synthesisParamsLayout, byteSize_synthesisParamsLayout, putAll_values]

/-- What the parameters ask for is what the C API goes by. -/
structure SynthesisParams.Arrives (params : SynthesisParams) (callback userData : UInt64)
    (read : Params.SynthesisParams) : Prop where
  rate : (read.rate.toNat : Int) = params.rate.toInt
  volume : (read.volume.toNat : Int) = params.volume.toInt
  pitch : (read.pitch.toNat : Int) = params.pitch.toInt
  appendedSilenceMs : (read.appendedSilenceMs.toNat : Int) = params.appendedSilenceMs.toInt
  nonblocking : read.nonblocking ≠ 0 ↔ params.nonblocking
  callback : read.callback = callback
  userData : read.userData = userData
  /-- The mode is that of the stream, and never an unknown one. -/
  mode : ∀ call : SpeakEvents.SpeakCall, call.params = read.speakParams →
    call.streamMode = some (match params.mode with
      | .lazy => .lazy
      | .parallel => .parallel
      | .realtime => .realtime SpeakEvents.realtimeChunkSize SpeakEvents.realtimeChunkPadding
      | .batched => .batched call.defaultBatchSize)

theorem toUInt32_toNat {value : Int32} (h : 0 ≤ value) :
    (value.toUInt32.toNat : Int) = value.toInt := by
  have hnonneg : 0 ≤ value.toBitVec.toInt := Int32.le_iff_toInt_le.mp h
  have hcases := BitVec.toInt_eq_toNat_cond value.toBitVec
  have hlt := value.toBitVec.isLt
  calc (value.toUInt32.toNat : Int) = value.toBitVec.toNat := rfl
    _ = value.toBitVec.toInt := by
        split at hcases <;> omega
    _ = value.toInt := rfl

/-- A percentage fits into a byte. -/
theorem toUInt8_toNat {value : Int32} (h : InRange value) :
    (value.toUInt32.toUInt8.toNat : Int) = value.toInt := by
  have hnat := toUInt32_toNat h.1
  have hle : value.toInt ≤ 100 := Int32.le_iff_toInt_le.mp h.2
  rw [UInt32.toNat_toUInt8]
  omega

theorem SynthesisParams.arrives (params : SynthesisParams) (callback userData : UInt64) :
    params.Arrives callback userData (params.toC callback userData) where
  rate := toUInt8_toNat params.rate_inRange
  volume := toUInt8_toNat params.volume_inRange
  pitch := toUInt8_toNat params.pitch_inRange
  appendedSilenceMs := toUInt32_toNat params.appendedSilenceMs_nonneg
  nonblocking := by
    rw [toC]
    cases hnonblocking : params.nonblocking <;> dsimp only <;> decide
  callback := rfl
  userData := rfl
  mode call h := by
    rw [SpeakEvents.SpeakCall.streamMode, h, toC, Params.SynthesisParams.speakParams]
    cases params.mode <;> rfl

end Java

/-! ## The Go binding -/

namespace Go

/-- The parameters of a Go caller. -/
structure SynthesisParams where
  mode : Int32
  rate : UInt8
  volume : UInt8
  pitch : UInt8
  appendedSilenceMs : UInt32
  nonblocking : Bool

/-- `newCParams`, in zeroed C memory. -/
def newCParams (params : SynthesisParams) : Params.SynthesisParams where
  structSize := 40
  mode := params.mode
  rate := params.rate
  volume := params.volume
  pitch := params.pitch
  appendedSilenceMs := params.appendedSilenceMs
  callback := 0
  nonblocking := params.nonblocking.toUInt8
  userData := 0

/-- The parameters of `Speak`. -/
def speakCParams (params : SynthesisParams) (callback token : UInt64) : Params.SynthesisParams :=
  { newCParams params with callback, userData := token }

end Go

/-- Whatever fields later versions append to the struct, the library reads of a Java or a Go
program what it asked for; and of a caller of any version what it wrote to the fields of this
one, unless its struct is too small for them. -/
theorem params_arrive (later : List Field) :
    (∀ (params : Java.SynthesisParams) (callback userData : UInt64) (beyond : List UInt8),
      ∃ read, Reads later (Java.allocate params callback userData ++ beyond) read ∧
        params.Arrives callback userData read) ∧
    (∀ (params : Go.SynthesisParams) (callback token : UInt64) (beyond : List UInt8),
      Reads later (image (Go.speakCParams params callback token) beyond)
        (Go.speakCParams params callback token)) ∧
    ∀ memory, Truthful memory →
      ((∃ read, readParams (synthesisParamsFields ++ later) (some memory) = .ok read) ↔
        synthesisParamsV1Size ≤ ofLeBytes (memory.take 4)) ∧
      ∀ read, readParams (synthesisParamsFields ++ later) (some memory) = .ok read →
        SynthesisParams.ofImage read = SynthesisParams.ofImage memory := by
  refine ⟨?_, ?_, ?_⟩
  · intro params callback userData beyond
    refine ⟨_, ?_, params.arrives callback userData⟩
    rw [Java.allocate_eq]
    exact reads_image rfl later beyond
  · intro params callback token beyond
    exact reads_image rfl later beyond
  · intro memory htrue
    have hok : ∀ read, readParams (synthesisParamsFields ++ later) (some memory) = .ok read →
        synthesisParamsV1Size ≤ ofLeBytes (memory.take 4) := by
      intro read hread
      by_contra hsmall
      rw [readParams, if_pos (Nat.lt_of_not_le hsmall)] at hread
      cases hread
    refine ⟨⟨fun ⟨read, hread⟩ => hok read hread, fun h => ?_⟩, fun read hread => ?_⟩
    · obtain ⟨read, hread, -⟩ := decode_readParams later htrue h
      exact ⟨read, hread⟩
    · obtain ⟨_, hsame, hdecode⟩ := decode_readParams later htrue (hok read hread)
      cases Except.ok.inj (hread.symm.trans hsame)
      rw [SynthesisParams.ofImage, SynthesisParams.ofImage, hdecode]

end Dengjen.Bindings.Params

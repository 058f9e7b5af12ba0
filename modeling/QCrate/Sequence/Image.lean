import QCrate.DataPlane.Packetizer
import QCrate.Lib.LittleEndian
import QCrate.Sequence.Program

/-!
# Program images

A `.qseq` image is a header and the events, little-endian, with a CRC-32 over the events.
`qcrate_sequence.py` writes and reads images on the host, and `qcrate-sequence` reads them again
on the target before it loads them.

* `validateEvents_ok_iff` — the host accepts a list of events when it is a program.
* `decodeSequence_ok_iff`, `decodeImage_ok_iff` — both decoders accept exactly the images of
  programs.
-/

namespace QCrate.Sequence

open QCrate.Lib

abbrev Bytes := DataPlane.Bytes

/-! ## Errors -/

/-- The `SequenceError`s, with what their texts mention. The texts of the two programs differ
in what they mention about the timestamps and the tick rate. -/
inductive SequenceError where
  | eventCount
  | timestampOrder (index : Option ℕ)
  | reservedState (index : ℕ)
  | nonzeroFlags (index : ℕ)
  | noStateChange (index : ℕ)
  | unsafeFinal
  | shortImage
  | wrongMagic
  | unsupportedVersion (version : ℕ)
  | recordSizes
  | tickRate (actual : Option ℕ)
  | reservedField
  | imageSize (actual expected : ℕ)
  | crcMismatch (expected actual : ℕ)
  deriving DecidableEq, Repr

/-! ## Events -/

/-- `MIN_EVENTS`, `MAX_EVENTS` and `OUTPUT_MASK`. -/
def minCount : ℕ := 2
def maxCount : ℕ := 128
def outputMask : BitVec 32 := 3

/-- The loop over the events, which both programs have. The event before is known by its
timestamp, if there is one, and its output state. -/
def checkLoop (orderError : ℕ → SequenceError) :
    List Event → ℕ → Option (BitVec 64) → BitVec 32 → Except SequenceError (BitVec 32)
  | [], _, _, previousState => .ok previousState
  | e :: events, index, previousTimestamp, previousState =>
    if previousTimestamp.any (e.timestamp ≤ ·) then .error (orderError index)
    else if e.state &&& ~~~outputMask ≠ 0 then .error (.reservedState index)
    else if e.flags ≠ 0 then .error (.nonzeroFlags index)
    else if e.state = previousState then .error (.noStateChange index)
    else checkLoop orderError events (index + 1) (some e.timestamp) e.state

/-- The loop and the test after it. -/
def checkEvents (orderError : ℕ → SequenceError) (events : List Event) :
    Except SequenceError Unit :=
  match checkLoop orderError events 0 none 0 with
  | .error e => .error e
  | .ok previousState => if previousState ≠ 0 then .error .unsafeFinal else .ok ()

/-- `validate_events`. The fields of an `Event` are in the range that `_uint` asks for. -/
def validateEvents (events : List Event) : Except SequenceError Unit :=
  if ¬(minCount ≤ events.length ∧ events.length ≤ maxCount) then .error .eventCount
  else checkEvents (fun _ => .timestampOrder none) events

/-! ## Header and records -/

/-- `HEADER`, `<4sHHIIIIQ` -/
structure ImageHeader where
  magic : ℕ
  version : ℕ
  headerSize : ℕ
  eventCount : ℕ
  eventSize : ℕ
  tickHz : ℕ
  crc32 : ℕ
  reserved : ℕ
  deriving DecidableEq, Repr

def headerBytes : ℕ := 32
def eventBytes : ℕ := 16
def formatVersion : ℕ := 1
def tickHz : ℕ := 200000000

/-- `b"QSEQ"` as the little-endian number that `qcrate_sequence_format.h` names. -/
def sequenceMagic : ℕ := 0x51455351

def ImageHeader.pack (h : ImageHeader) : Bytes :=
  putLE 4 h.magic ++ (putLE 2 h.version ++ (putLE 2 h.headerSize ++ (putLE 4 h.eventCount ++
    (putLE 4 h.eventSize ++ (putLE 4 h.tickHz ++ (putLE 4 h.crc32 ++ putLE 8 h.reserved))))))

def ImageHeader.unpack (image : Bytes) : ImageHeader :=
  { magic := readLE 4 image 0, version := readLE 2 image 4, headerSize := readLE 2 image 6
    eventCount := readLE 4 image 8, eventSize := readLE 4 image 12, tickHz := readLE 4 image 16
    crc32 := readLE 4 image 20, reserved := readLE 8 image 24 }

/-- `EVENT`, `<QII` -/
def Event.pack (e : Event) : Bytes :=
  putLE 8 e.timestamp.toNat ++ (putLE 4 e.state.toNat ++ putLE 4 e.flags.toNat)

def Event.unpack (b : Bytes) : Event :=
  { timestamp := BitVec.ofNat 64 (readLE 8 b 0), state := BitVec.ofNat 32 (readLE 4 b 8)
    flags := BitVec.ofNat 32 (readLE 4 b 12) }

/-- `zlib.crc32` -/
def crc32 (data : Bytes) : BitVec 32 :=
  DataPlane.crc32Update (BitVec.allOnes 32) data ^^^ BitVec.allOnes 32

/-! ## Encoder and decoders -/

/-- The payload of an image. -/
def payloadOf (events : List Event) : Bytes := writeTable Event.pack events

/-- The header of an image. -/
def headerOf (events : List Event) : ImageHeader :=
  { magic := sequenceMagic, version := formatVersion, headerSize := headerBytes
    eventCount := events.length, eventSize := eventBytes, tickHz := tickHz
    crc32 := (crc32 (payloadOf events)).toNat, reserved := 0 }

/-- `encode_sequence` -/
def encodeSequence (events : List Event) : Except SequenceError Bytes :=
  match validateEvents events with
  | .error e => .error e
  | .ok () => .ok ((headerOf events).pack ++ payloadOf events)

/-- The checks on header, size and CRC, in the order of both decoders, and the events. -/
def readImage (tickError : ℕ → SequenceError) (image : Bytes) :
    Except SequenceError (List Event × Bytes × BitVec 32) :=
  if image.length < headerBytes then .error .shortImage
  else
    let h := ImageHeader.unpack image
    if h.magic ≠ sequenceMagic then .error .wrongMagic
    else if h.version ≠ formatVersion then .error (.unsupportedVersion h.version)
    else if h.headerSize ≠ headerBytes ∨ h.eventSize ≠ eventBytes then .error .recordSizes
    else if h.tickHz ≠ tickHz then .error (tickError h.tickHz)
    else if h.reserved ≠ 0 then .error .reservedField
    else if ¬(minCount ≤ h.eventCount ∧ h.eventCount ≤ maxCount) then .error .eventCount
    else
      let expectedSize := h.headerSize + h.eventCount * h.eventSize
      if image.length ≠ expectedSize then .error (.imageSize image.length expectedSize)
      else
        let payload := image.drop h.headerSize
        let actualCrc := crc32 payload
        if actualCrc.toNat ≠ h.crc32 then .error (.crcMismatch h.crc32 actualCrc.toNat)
        else .ok (readTable eventBytes Event.unpack h.eventCount payload, payload, actualCrc)

/-- `decode_sequence` -/
def decodeSequence (image : Bytes) : Except SequenceError (List Event) :=
  match readImage (fun _ => .tickRate none) image with
  | .error e => .error e
  | .ok (events, _, _) =>
    match validateEvents events with
    | .error e => .error e
    | .ok () => .ok events

/-- `SequenceImage` of the target tool. -/
structure SequenceImage where
  events : List Event
  payload : Bytes
  crc32 : BitVec 32
  deriving DecidableEq, Repr

/-- `decode_image` -/
def decodeImage (contents : Bytes) : Except SequenceError SequenceImage :=
  match readImage (fun actual => .tickRate (some actual)) contents with
  | .error e => .error e
  | .ok (events, payload, actualCrc) =>
    match checkEvents (fun index => .timestampOrder (some index)) events with
    | .error e => .error e
    | .ok () => .ok ⟨events, payload, actualCrc⟩

/-! ## The checks accept programs -/

theorem outputMask_getLsbD (i : ℕ) : outputMask.getLsbD i = decide (i < 2) := by
  have hmask : outputMask = BitVec.ofNat 32 (2 ^ 2 - 1) := rfl
  rw [hmask, BitVec.getLsbD_ofNat, Nat.testBit_two_pow_sub_one]
  by_cases hi : i < 2
  · simp [hi, show i < 32 by omega]
  · simp [hi]

theorem reservedMask_iff (w : BitVec 32) : w &&& ~~~outputMask ≠ 0 ↔ ¬w.toNat < 4 := by
  have hlt := w.isLt
  have hzero : (0 : BitVec 32).toNat = 0 := rfl
  -- what is left of the word without its two low bits
  have hand : w &&& ~~~outputMask = (w >>> 2) <<< 2 := by
    apply BitVec.eq_of_getLsbD_eq
    intro i hi
    simp only [BitVec.getLsbD_and, BitVec.getLsbD_not, BitVec.getLsbD_shiftLeft,
      BitVec.getLsbD_ushiftRight, outputMask_getLsbD, hi, decide_true, Bool.true_and]
    by_cases h2 : i < 2
    · simp [h2]
    · rw [show 2 + (i - 2) = i by omega]
      simp [h2]
  rw [hand, ne_eq, ← BitVec.toNat_inj, BitVec.toNat_shiftLeft, BitVec.toNat_ushiftRight,
    Nat.shiftLeft_eq, Nat.shiftRight_eq_div_pow, hzero]
  omega

theorem any_timestamp (prev : Option Event) (e : Event) :
    (prev.map (·.timestamp)).any (e.timestamp ≤ ·) = false ↔
      ∀ p, prev = some p → p.timestamp < e.timestamp := by
  cases prev with
  | none => simp
  | some p => simp [BitVec.not_le]

/-- The loop gets through a list when every event follows the one before it. -/
theorem checkLoop_ok_iff (orderError : ℕ → SequenceError) (events : List Event) (index : ℕ)
    (prev : Option Event) (final : BitVec 32) :
    checkLoop orderError events index (prev.map (·.timestamp)) (stateAfter prev) = .ok final ↔
      Legal prev events ∧ final = stateAfter (events.getLast?.or prev) := by
  induction events generalizing index prev with
  | nil =>
    rw [checkLoop, Except.ok.injEq, eq_comm]
    exact (and_iff_right trivial).symm
  | cons e events ih =>
    have hlast : ((e :: events).getLast?).or prev = (events.getLast?).or (some e) := by
      cases events with
      | nil => rfl
      | cons e' events =>
        rw [List.getLast?_cons_cons, List.getLast?_cons]
        rfl
    rw [checkLoop, Legal, hlast]
    split
    · next h =>
      refine iff_of_false (by simp) fun hl => ?_
      rw [(any_timestamp prev e).mpr hl.1.1.later] at h
      cases h
    next htime =>
      rw [Bool.not_eq_true, any_timestamp] at htime
      split
      · next h => exact iff_of_false (by simp) fun hl => (reservedMask_iff _).mp h hl.1.1.reserved
      next hres =>
        rw [reservedMask_iff, not_not] at hres
        split
        · next h => exact iff_of_false (by simp) fun hl => h hl.1.1.flags
        next hflags =>
          split
          · next h => exact iff_of_false (by simp) fun hl => hl.1.1.changes h
          next hchanges =>
            have hf : Follows prev e := ⟨hres, not_not.mp hflags, hchanges, htime⟩
            rw [and_iff_right hf]
            exact ih (index + 1) (some e)

theorem checkEvents_ok_iff (orderError : ℕ → SequenceError) (events : List Event) :
    checkEvents orderError events = .ok () ↔
      Legal none events ∧ stateAfter events.getLast? = 0 := by
  have hloop := checkLoop_ok_iff orderError events 0 none
  simp only [Option.map_none, Option.or_none] at hloop
  unfold checkEvents
  cases hc : checkLoop orderError events 0 none 0 with
  | error e =>
    refine iff_of_false nofun fun hl => ?_
    have hok := (hloop _).mpr ⟨hl.1, rfl⟩
    rw [show stateAfter none = 0 from rfl, hc] at hok
    cases hok
  | ok final =>
    obtain ⟨hlegal, rfl⟩ := (hloop final).mp hc
    dsimp only
    split
    · next h => exact iff_of_false nofun fun hl => h hl.2
    · next h => exact iff_of_true rfl ⟨hlegal, not_not.mp h⟩

/-- The host accepts the programs. -/
theorem validateEvents_ok_iff (events : List Event) :
    validateEvents events = .ok () ↔ Program events := by
  unfold validateEvents
  split
  · next h => exact iff_of_false nofun fun hp => h ⟨hp.atLeast, hp.atMost⟩
  · next h =>
    obtain ⟨hmin, hmax⟩ := not_not.mp h
    rw [checkEvents_ok_iff]
    exact ⟨fun hl => ⟨hmin, hmax, hl.1, hl.2⟩, fun hp => ⟨hp.legal, hp.safe⟩⟩

/-! ## Records -/

theorem ImageHeader.length_pack (h : ImageHeader) : h.pack.length = headerBytes := by
  simp [ImageHeader.pack, headerBytes]

/-- A header whose fields fit their widths. -/
structure ImageHeader.Fits (h : ImageHeader) : Prop where
  magic : h.magic < 256 ^ 4
  version : h.version < 256 ^ 2
  headerSize : h.headerSize < 256 ^ 2
  eventCount : h.eventCount < 256 ^ 4
  eventSize : h.eventSize < 256 ^ 4
  tickHz : h.tickHz < 256 ^ 4
  crc32 : h.crc32 < 256 ^ 4
  reserved : h.reserved < 256 ^ 8

theorem ImageHeader.unpack_pack {h : ImageHeader} (hf : h.Fits) (rest : Bytes) :
    ImageHeader.unpack (h.pack ++ rest) = h := by
  obtain ⟨h1, h2, h3, h4, h5, h6, h7, h8⟩ := hf
  simp only [ImageHeader.unpack, ImageHeader.pack, List.append_assoc]
  simp only [readLE_skip, readLE_putLE, length_putLE, Nat.reduceLeDiff, Nat.reduceSub,
    Nat.mod_eq_of_lt, h1, h2, h3, h4, h5, h6, h7, h8]

theorem ImageHeader.pack_unpack {image : Bytes} (hlen : headerBytes ≤ image.length) :
    (ImageHeader.unpack image).pack = image.take headerBytes := by
  unfold headerBytes at *
  simp only [ImageHeader.pack, ImageHeader.unpack]
  rw [putLE_readLE (by omega), putLE_readLE (by omega), putLE_readLE (by omega),
    putLE_readLE (by omega), putLE_readLE (by omega), putLE_readLE (by omega),
    putLE_readLE (by omega), putLE_readLE (by omega)]
  rw [take_drop_append image 20 4 8, take_drop_append image 16 4 12,
    take_drop_append image 12 4 16, take_drop_append image 8 4 20, take_drop_append image 6 2 24,
    take_drop_append image 4 2 26, take_drop_append image 0 4 28, List.drop_zero]

theorem event_format : RecordFormat eventBytes Event.pack Event.unpack where
  length := fun e => by simp [Event.pack, eventBytes]
  unpack_pack := fun e rest => by
    have ht := e.timestamp.isLt
    have hs := e.state.isLt
    have hf := e.flags.isLt
    simp only [Event.unpack, Event.pack, List.append_assoc]
    simp only [readLE_skip, readLE_putLE, length_putLE, Nat.reduceLeDiff, Nat.reduceSub]
    rw [Nat.mod_eq_of_lt (by omega), Nat.mod_eq_of_lt (by omega), Nat.mod_eq_of_lt (by omega)]
    simp only [BitVec.ofNat_toNat, BitVec.setWidth_eq]
  pack_unpack := fun input hlen => by
    unfold eventBytes at *
    have ht : readLE 8 input 0 < 2 ^ 64 := readLE_lt 8 input 0
    have hs : readLE 4 input 8 < 2 ^ 32 := readLE_lt 4 input 8
    have hf : readLE 4 input 12 < 2 ^ 32 := readLE_lt 4 input 12
    simp only [Event.pack, Event.unpack, BitVec.toNat_ofNat, Nat.mod_eq_of_lt, ht, hs, hf]
    rw [putLE_readLE (by omega), putLE_readLE (by omega), putLE_readLE (by omega),
      take_drop_append input 8 4 4, take_drop_append input 0 8 8, List.drop_zero]

/-! ## Images -/

/-- The image of a list of events. -/
def imageOf (events : List Event) : Bytes := (headerOf events).pack ++ payloadOf events

theorem headerOf_fits {events : List Event} (h : events.length ≤ maxCount) :
    (headerOf events).Fits where
  magic := show sequenceMagic < 256 ^ 4 by decide
  version := show formatVersion < 256 ^ 2 by decide
  headerSize := show headerBytes < 256 ^ 2 by decide
  eventCount := lt_of_le_of_lt h (by decide)
  eventSize := show eventBytes < 256 ^ 4 by decide
  tickHz := show tickHz < 256 ^ 4 by decide
  crc32 := BitVec.isLt _
  reserved := show 0 < 256 ^ 8 by decide

/-- The header a decoder lets through is the one of the events it reads. -/
theorem image_of_checks {image : Bytes} (hlen : headerBytes ≤ image.length)
    (hmagic : (ImageHeader.unpack image).magic = sequenceMagic)
    (hversion : (ImageHeader.unpack image).version = formatVersion)
    (hsizes : (ImageHeader.unpack image).headerSize = headerBytes ∧
      (ImageHeader.unpack image).eventSize = eventBytes)
    (htick : (ImageHeader.unpack image).tickHz = tickHz)
    (hreserved : (ImageHeader.unpack image).reserved = 0)
    (hsize : image.length = headerBytes + (ImageHeader.unpack image).eventCount * eventBytes)
    (hcrc : (crc32 (image.drop headerBytes)).toNat = (ImageHeader.unpack image).crc32) :
    payloadOf (readTable eventBytes Event.unpack (ImageHeader.unpack image).eventCount
        (image.drop headerBytes)) = image.drop headerBytes ∧
      imageOf (readTable eventBytes Event.unpack (ImageHeader.unpack image).eventCount
        (image.drop headerBytes)) = image := by
  have hpayload : payloadOf (readTable eventBytes Event.unpack
      (ImageHeader.unpack image).eventCount (image.drop headerBytes)) = image.drop headerBytes := by
    refine writeTable_readTable event_format ?_
    rw [List.length_drop, hsize]
    omega
  have hheader : headerOf (readTable eventBytes Event.unpack
      (ImageHeader.unpack image).eventCount (image.drop headerBytes)) =
      ImageHeader.unpack image := by
    unfold headerOf
    rw [hpayload, hcrc, length_readTable, ← hmagic, ← hversion, ← hsizes.1, ← hsizes.2, ← htick,
      ← hreserved]
  refine ⟨hpayload, ?_⟩
  rw [imageOf, hpayload, hheader, ImageHeader.pack_unpack hlen, List.take_append_drop]

theorem readImage_imageOf (tickError : ℕ → SequenceError) {events : List Event}
    (hmin : minCount ≤ events.length) (hmax : events.length ≤ maxCount) :
    readImage tickError (imageOf events) =
      .ok (events, payloadOf events, crc32 (payloadOf events)) := by
  have hunpack : ImageHeader.unpack (imageOf events) = headerOf events :=
    ImageHeader.unpack_pack (headerOf_fits hmax) _
  have hlen : (imageOf events).length = headerBytes + events.length * eventBytes := by
    rw [imageOf, List.length_append, ImageHeader.length_pack, payloadOf,
      length_writeTable event_format]
  have hdrop : (imageOf events).drop headerBytes = payloadOf events :=
    List.drop_left' (ImageHeader.length_pack _)
  unfold readImage
  rw [if_neg (by omega), hunpack]
  simp only [headerOf, hdrop, hlen, hmin, hmax, ne_eq, not_true_eq_false, if_false, or_self,
    and_self]
  rw [payloadOf, readTable_writeTable event_format]

/-- What both decoders find in an image before they look at the events. -/
theorem readImage_ok_iff (tickError : ℕ → SequenceError) (image : Bytes) (events : List Event)
    (payload : Bytes) (crc : BitVec 32) :
    readImage tickError image = .ok (events, payload, crc) ↔
      (minCount ≤ events.length ∧ events.length ≤ maxCount) ∧ image = imageOf events ∧
        payload = payloadOf events ∧ crc = crc32 (payloadOf events) := by
  constructor
  · intro h
    unfold readImage at h
    split at h
    · cases h
    next hlen =>
      dsimp only at h
      split at h
      · cases h
      next hmagic =>
        split at h
        · cases h
        next hversion =>
          split at h
          · cases h
          next hsizes =>
            split at h
            · cases h
            next htick =>
              split at h
              · cases h
              next hreserved =>
                split at h
                · cases h
                next hcount =>
                  obtain ⟨hheader, hevent⟩ := not_or.mp hsizes
                  rw [not_not] at hmagic hversion htick hreserved hcount hheader hevent
                  rw [hheader, hevent] at h
                  split at h
                  · cases h
                  next hsize =>
                    split at h
                    · cases h
                    next hcrc =>
                      rw [not_not] at hsize hcrc
                      obtain ⟨hpayload, himage⟩ := image_of_checks (Nat.not_lt.mp hlen) hmagic
                        hversion ⟨hheader, hevent⟩ htick hreserved hsize hcrc
                      cases h
                      rw [length_readTable, hpayload, himage]
                      exact ⟨hcount, rfl, rfl, rfl⟩
  · rintro ⟨⟨hmin, hmax⟩, rfl, rfl, rfl⟩
    exact readImage_imageOf tickError hmin hmax

/-! ## Both decoders, and the encoder -/

theorem encodeSequence_ok_iff (events : List Event) (image : Bytes) :
    encodeSequence events = .ok image ↔ Program events ∧ image = imageOf events := by
  rw [← validateEvents_ok_iff]
  unfold encodeSequence
  cases hv : validateEvents events with
  | error e => exact iff_of_false nofun fun h => nomatch h.1
  | ok u =>
    cases u
    dsimp only
    rw [Except.ok.injEq, eq_comm]
    exact (and_iff_right rfl).symm

/-- The host decodes the images of programs. -/
theorem decodeSequence_ok_iff (image : Bytes) (events : List Event) :
    decodeSequence image = .ok events ↔ Program events ∧ image = imageOf events := by
  unfold decodeSequence
  constructor
  · intro h
    split at h
    · cases h
    next events' payload crc hread =>
      split at h
      · cases h
      · next hv =>
        cases h
        exact ⟨(validateEvents_ok_iff _).mp hv, ((readImage_ok_iff _ _ _ _ _).mp hread).2.1⟩
  · rintro ⟨hprog, rfl⟩
    have hread := readImage_imageOf (fun _ => .tickRate none) hprog.atLeast hprog.atMost
    rw [hread]
    dsimp only
    rw [(validateEvents_ok_iff events).mpr hprog]

/-- The target tool decodes the images of programs. -/
theorem decodeImage_ok_iff (image : Bytes) (result : SequenceImage) :
    decodeImage image = .ok result ↔
      Program result.events ∧ image = imageOf result.events ∧
        result.payload = payloadOf result.events ∧
        result.crc32 = crc32 (payloadOf result.events) := by
  unfold decodeImage
  constructor
  · intro h
    split at h
    · cases h
    next events payload crc hread =>
      split at h
      · cases h
      · next hcheck =>
        cases h
        obtain ⟨⟨hmin, hmax⟩, himage, hpayload, hcrc⟩ := (readImage_ok_iff _ _ _ _ _).mp hread
        obtain ⟨hlegal, hsafe⟩ := (checkEvents_ok_iff _ _).mp hcheck
        exact ⟨⟨hmin, hmax, hlegal, hsafe⟩, himage, hpayload, hcrc⟩
  · obtain ⟨events, payload, crc⟩ := result
    rintro ⟨hprog, rfl, hpayload, hcrc⟩
    dsimp only at hprog hpayload hcrc
    subst hpayload hcrc
    have hread := readImage_imageOf (fun actual => .tickRate (some actual)) hprog.atLeast
      hprog.atMost
    rw [hread]
    dsimp only
    rw [(checkEvents_ok_iff _ events).mpr ⟨hprog.legal, hprog.safe⟩]

end QCrate.Sequence

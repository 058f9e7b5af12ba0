import QCrate.Sequence.LoadPath
import QCrate.Sequence.Playback

/-!
# Four validators, one language

The host and the target tool read images; the R5 takes events one by one; the engine checks the
table before it plays. All four accept the programs and nothing else, so they agree pairwise.

* `validators_agree` — on event lists of any length, on images, and both ways through the codec.
-/

namespace QCrate.Sequence

open QCrate.R5

/-- Host validation, the load path and the VALIDATE pass accept the same lists, what was loaded is
the table the engine reads, both decoders accept the same images, and encoder and decoder are
inverse to each other. -/
theorem validators_agree (events : List Event) {s : Service Page} (hfree : s.bus.Free)
    (beginId commitId : Word) (ids : ℕ → Word) {m : Memory} {p : Player} {inputs : ℕ → EngineIn}
    (hm : Holds m (events.take 128)) (hidle : p.engine.state = .idle)
    (hq : ∀ t, Quiet events.length (p.after m inputs t).engine (inputs t))
    (harm : (inputs 0).arm = true) :
    (validateEvents events = .ok () ↔
      (loadProgram pageBus beginId commitId ids events s).1 = true) ∧
    (validateEvents events = .ok () ↔
      (inputs 0).eventCount.toNat = events.length ∧
        ∃ t, (p.after m inputs t).engine.state = .prefetch) ∧
    (validateEvents events = .ok () →
      Holds (loadProgram pageBus beginId commitId ids events s).2.bus.memory events ∧
        (loadProgram pageBus beginId commitId ids events s).2.bus.eventCount.toNat =
          events.length) ∧
    (validateEvents events = .ok () ↔ ∃ image, encodeSequence events = .ok image) ∧
    ∀ image,
      (decodeSequence image = .ok events ↔
        ∃ result, decodeImage image = .ok result ∧ result.events = events) ∧
      (decodeSequence image = .ok events ↔ encodeSequence events = .ok image) := by
  rw [validateEvents_ok_iff, passes_iff_program hm hidle hq harm]
  have hload := loadProgram_iff hfree beginId commitId ids events
  refine ⟨?_, Iff.rfl, ?_, ?_, fun image => ⟨?_, ?_⟩⟩
  · rcases hload with ⟨hprog, s', hs', -⟩ | ⟨hno, hfalse⟩
    · rw [hs']
      exact iff_of_true hprog rfl
    · rw [hfalse]
      exact iff_of_false hno Bool.false_ne_true
  · intro hprog
    rcases hload with ⟨-, s', hs', hholds, hcount⟩ | ⟨hno, -⟩
    · rw [hs']
      refine ⟨hholds, ?_⟩
      have hmax := hprog.atMost
      rw [hcount, BitVec.toNat_ofNat]
      omega
    · exact absurd hprog hno
  · simp only [encodeSequence_ok_iff, exists_and_left, exists_eq, and_true]
  · simp only [decodeSequence_ok_iff, decodeImage_ok_iff]
    constructor
    · rintro ⟨hprog, rfl⟩
      exact ⟨⟨events, payloadOf events, crc32 (payloadOf events)⟩, ⟨hprog, rfl, rfl, rfl⟩, rfl⟩
    · rintro ⟨result, ⟨hprog, himage, -, -⟩, rfl⟩
      exact ⟨hprog, himage⟩
  · rw [decodeSequence_ok_iff, encodeSequence_ok_iff]

/-! ## The pulse of one tick, through all of them -/

/-- An empty page at rest. -/
def restingPage : Page :=
  { memory := fun _ => 0, eventCount := 0, memoryLocked := false, commandBusy := false
    faulted := false, busy := false, armed := false, validating := false, idle := true
    report := fun _ => 0 }

/-- A service that has not loaded anything yet. -/
def restingService : Service Page :=
  { bus := restingPage
    sequenceLoad :=
      { active := false, committed := false, expectedEvents := 0, nextEvent := 0
        expectedCrc32 := 0, crc32State := 0, previousTimestamp := 0, previousState := 0 }
    config :=
      { staged := false, validated := false, reason := .none, words := Vector.replicate 11 0 }
    writes := [] }

theorem validators_agree_onePulse :
    (loadProgram pageBus 1 4 (fun i => BitVec.ofNat 32 (i + 2)) onePulse restingService).1 = true ∧
      ∃ t, (resetPlayer.after onePulseMemory armAndStart t).engine.state = .prefetch := by
  obtain ⟨hload, hpass, -⟩ := validators_agree onePulse (s := restingService)
    ⟨rfl, rfl, rfl, rfl⟩ 1 4 (fun i => BitVec.ofNat 32 (i + 2)) (m := onePulseMemory)
    (p := resetPlayer) onePulse_holds rfl armAndStart_quiet rfl
  have hvalid : validateEvents onePulse = .ok () := by decide
  exact ⟨hload.mp hvalid, (hpass.mp hvalid).2⟩

end QCrate.Sequence

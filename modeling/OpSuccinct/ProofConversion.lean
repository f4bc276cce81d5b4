import OpSuccinct.Evm
import OpSuccinct.InFlight
import OpSuccinct.TransitionRuns

/-! # The proof conversion service

`index.js` of the proof conversion service.  A saved proof file is offered by the scan of
the directory at the start or by an event of the watcher, and an attempt reads, parses,
converts and saves it.  Attempts run from one `await` to the next, in any order.

An attempt starts for a name that is not in `processedFiles` and puts it there, so at most
one is in progress for a name.  If the conversion or the save throws, the name is taken out
again; if the read or the parse fails, `parseProofFile` catches the error, and the attempt
returns with the name left in the set, so the file is never tried again.  What the set says
is right in every state of a run exactly if no attempt gives up like that
(`bookkeeping_iff`).
-/
namespace OpSuccinct.Conversion

open InFlight Transition

/-! ## Files and proofs -/

/-- `file.endsWith('.bin')`. -/
def isBin (file : String) : Bool := ".bin".toList.isSuffixOf file.toList

/-- The groups of `/^(\d+)_(\d+)\.bin$/`. -/
def matchFileName (fileName : String) : Option (String × String) :=
  let startBlock := fileName.toList.takeWhile Char.isDigit
  match startBlock, fileName.toList.dropWhile Char.isDigit with
  | _ :: _, '_' :: rest =>
    let endBlock := rest.takeWhile Char.isDigit
    if endBlock ≠ [] ∧ rest.dropWhile Char.isDigit = ".bin".toList then
      some (String.ofList startBlock, String.ofList endBlock)
    else none
  | _, _ => none

/-- What `parseProofFile` makes of a file; the bytes stand for their hex string, and the
block numbers for what `parseInt` makes of them. -/
structure Sp1ProofStructure where
  encodedProof : Bytes
  publicInputs : List String
  publicValues : Bytes
  startBlock : String
  endBlock : String
  originalSize : Nat
  deriving DecidableEq

/-- `parseProofFile`, given the file if it could be read.  Every error is caught. -/
def parseProofFile (fileName : String) (file : Option Bytes) : Option Sp1ProofStructure := do
  let fileBuffer ← file
  let (startBlock, endBlock) ← matchFileName fileName
  some ⟨fileBuffer, ["0x" ++ String.ofList (List.replicate 64 '0')], fileBuffer.take 32, startBlock,
    endBlock, fileBuffer.length⟩

/-- Nothing comes of a file that cannot be read, or whose name has another form. -/
theorem parseProofFile_eq_none_iff {fileName : String} {file : Option Bytes} :
    parseProofFile fileName file = none ↔ file = none ∨ matchFileName fileName = none := by
  cases file with
  | none => exact iff_of_true rfl (.inl rfl)
  | some fileBuffer =>
    cases hmatch : matchFileName fileName with
    | none => exact iff_of_true (by simp [parseProofFile, hmatch]) (.inr rfl)
    | some blocks => exact iff_of_false (by simp [parseProofFile, hmatch]) (by simp)

/-- `name.replace('.bin', '')`, of the first occurrence. -/
def withoutBin : List Char → List Char
  | [] => []
  | c :: cs => if ".bin".toList.isPrefixOf (c :: cs) then cs.drop 3 else c :: withoutBin cs

def outputFileName (originalFileName : String) : String :=
  String.ofList (withoutBin originalFileName.toList) ++ "_converted.json"

/-- A file that `saveConvertedProof` writes. -/
structure ConvertedProof (C : Type) where
  outputFile : String
  originalFile : String
  convertedProof : C
  deriving DecidableEq

/-! ## The service -/

/-- What an attempt of `processProofFile` waits for: a read, a conversion or a write, or,
once that is settled, its own continuation. -/
inductive Phase (C : Type)
  | reading
  | parsed (proofData : Option Sp1ProofStructure)
  | converting (proofData : Sp1ProofStructure)
  /-- The conversion, or nothing if it threw. -/
  | converted (result : Option C)
  | saving (convertedProof : C)
  /-- The write succeeded, or threw. -/
  | saved (succeeded : Bool)
  deriving DecidableEq

/-- `processExistingFiles`: before `readdir` is settled, in its loop, with the attempt it
awaits, and after it. -/
inductive Existing
  | listing
  | looping (files : List String) (awaiting : Option Nat)
  | processed
  deriving DecidableEq

/-- **The service**, and the converted proofs it has written. -/
structure Service (C : Type) where
  /-- `processedFiles`, and the attempts in progress. -/
  desk : Desk String (Phase C)
  isShuttingDown : Bool
  existing : Existing
  written : List (ConvertedProof C)

/-- What happens to the service.  The watcher is started after the existing files are
processed; its events may come at any time here. -/
inductive Label (C : Type)
  /-- `readdir` is settled. -/
  | readdir (files : Option (List String))
  /-- The loop over the existing files goes on. -/
  | next
  | add (file : String)
  /-- `readFile` is settled. -/
  | read (id : Nat) (file : Option Bytes)
  /-- `performSp1ToPlonk` is settled. -/
  | converted (id : Nat) (result : Option C)
  /-- `writeFile` is settled. -/
  | written (id : Nat) (succeeded : Bool)
  /-- An attempt continues after what it waited for. -/
  | resume (id : Nat)
  | shutdown

variable {C : Type}

def Service.start : Service C := ⟨.empty, false, .listing, []⟩

def Service.processedFiles (s : Service C) : Finset String := s.desk.claimed

/-- `processProofFile` up to its first `await`, with the attempt it starts. -/
def Service.processProofFile (s : Service C) (fileName : String) : Service C × Option Nat :=
  if fileName ∈ s.processedFiles ∨ s.isShuttingDown = true then (s, none)
  else ({ s with desk := s.desk.start fileName .reading }, some s.desk.nextId)

/-- `processProofFile` after an `await`. -/
def Service.resume (s : Service C) (id : Nat) (fileName : String) : Phase C → Option (Service C)
  -- "Failed to parse proof file: {fileName}": it returns, and the name stays
  | .parsed none => some { s with desk := s.desk.finish id }
  | .parsed (some proofData) =>
    some { s with desk := s.desk.move id fileName (.converting proofData) }
  | .converted (some convertedProof) =>
    some { s with desk := s.desk.move id fileName (.saving convertedProof) }
  | .saved true => some { s with desk := s.desk.finish id }
  -- an error was thrown, and the name is deleted
  | .converted none => some { s with desk := s.desk.release id fileName }
  | .saved false => some { s with desk := s.desk.release id fileName }
  | .reading => none
  | .converting _ => none
  | .saving _ => none

/-- The loop of `processExistingFiles`, at its next file. -/
def Service.processNext (s : Service C) : List String → Service C
  | [] => { s with existing := .processed }
  | file :: files =>
    let (s', attempt) := s.processProofFile file
    { s' with existing := .looping files attempt }

/-- **One step of the service.** -/
def step (s : Service C) : Label C → Option (Service C)
  | .readdir files =>
    match s.existing with
    | .listing =>
      some { s with existing :=
        match files with
        | some files => .looping (files.filter isBin) none
        | none => .processed }
    | _ => none
  | .next =>
    match s.existing with
    | .looping files awaiting =>
      if awaiting.all (fun id => (s.desk.running id).isNone) = true then some (s.processNext files)
      else none
    | _ => none
  | .add file => if isBin file = true then some (s.processProofFile file).1 else none
  | .read id file =>
    match s.desk.running id with
    | some (fileName, .reading) =>
      some { s with desk := s.desk.move id fileName (.parsed (parseProofFile fileName file)) }
    | _ => none
  | .converted id result =>
    match s.desk.running id with
    | some (fileName, .converting _) =>
      some { s with desk := s.desk.move id fileName (.converted result) }
    | _ => none
  | .written id succeeded =>
    match s.desk.running id with
    | some (fileName, .saving convertedProof) =>
      some { s with
        desk := s.desk.move id fileName (.saved succeeded)
        written := if succeeded = true then
            s.written ++ [⟨outputFileName fileName, fileName, convertedProof⟩]
          else s.written }
    | _ => none
  | .resume id =>
    match s.desk.running id with
    | some (fileName, phase) => s.resume id fileName phase
    | none => none
  | .shutdown => some { s with isShuttingDown := true }

/-! ## What is kept -/

/-- The converted proof of the file has been saved. -/
def Saved (written : List (ConvertedProof C)) (fileName : String) : Prop :=
  ∃ p ∈ written, p.originalFile = fileName

/-- **The bookkeeping is right**: at most one attempt for a name is in progress, a processed
name without an attempt has been saved, and so a file that is neither in progress nor saved
is tried again when it is offered. -/
structure Kept (s : Service C) : Prop where
  one : ∀ id id' fileName phase phase', s.desk.running id = some (fileName, phase) →
    s.desk.running id' = some (fileName, phase') → id = id'
  saved : ∀ fileName ∈ s.processedFiles, s.desk.Idle fileName → Saved s.written fileName
  retried : s.isShuttingDown = false → ∀ fileName, s.desk.Idle fileName →
    ¬ Saved s.written fileName → (s.processProofFile fileName).2.isSome = true

/-- **An attempt gives up**: it continues with nothing from `parseProofFile`, which could not
read the file or does not know its name. -/
def givesUp (s : Service C) : Label C → Bool
  | .resume id =>
    match s.desk.running id with
    | some (_, .parsed none) => true
    | _ => false
  | _ => false

theorem givesUp_iff {s : Service C} {l : Label C} :
    givesUp s l = true ↔
      ∃ id fileName, l = .resume id ∧ s.desk.running id = some (fileName, .parsed none) := by
  constructor
  · intro h
    cases l with
    | resume id =>
      simp only [givesUp] at h
      split at h
      case h_1 fileName hrun => exact ⟨id, fileName, rfl, hrun⟩
      case h_2 => cases h
    | _ => cases h
  · rintro ⟨id, fileName, rfl, hrun⟩
    simp only [givesUp, hrun]

/-! ## What a step does -/

/-- **The effect of a step** on the attempts and the files written. -/
inductive Effect (desk : Desk String (Phase C)) (written : List (ConvertedProof C))
    (l : Label C) : Desk String (Phase C) → List (ConvertedProof C) → Prop
  | same : Effect desk written l desk written
  | started {fileName : String} : fileName ∉ desk.claimed →
      Effect desk written l (desk.start fileName .reading) written
  | moved {id : Nat} {fileName : String} {phase phase' : Phase C} :
      desk.running id = some (fileName, phase) → phase ≠ .saved true → phase' ≠ .saved true →
      Effect desk written l (desk.move id fileName phase') written
  | saved {id : Nat} {fileName : String} {convertedProof : C} :
      desk.running id = some (fileName, .saving convertedProof) →
      Effect desk written l (desk.move id fileName (.saved true))
        (written ++ [⟨outputFileName fileName, fileName, convertedProof⟩])
  | gaveUp {id : Nat} {fileName : String} : l = .resume id →
      desk.running id = some (fileName, .parsed none) →
      Effect desk written l (desk.finish id) written
  | succeeded {id : Nat} {fileName : String} : desk.running id = some (fileName, .saved true) →
      Effect desk written l (desk.finish id) written
  | failed {id : Nat} {fileName : String} {phase : Phase C} :
      desk.running id = some (fileName, phase) → phase ≠ .saved true →
      Effect desk written l (desk.release id fileName) written

variable {s s' : Service C} {l : Label C} {fileName : String} {id : Nat} {phase : Phase C}
  {desk desk' : Desk String (Phase C)} {written written' : List (ConvertedProof C)}

theorem processProofFile_effect (s : Service C) (fileName : String) :
    Effect s.desk s.written l (s.processProofFile fileName).1.desk
      (s.processProofFile fileName).1.written := by
  unfold Service.processProofFile
  split
  case isTrue => exact .same
  case isFalse h => exact .started fun hmem => h (.inl hmem)

theorem processNext_effect (s : Service C) (files : List String) :
    Effect s.desk s.written l (s.processNext files).desk (s.processNext files).written := by
  cases files with
  | nil => exact .same
  | cons file files => exact processProofFile_effect s file

theorem resume_effect (hl : l = .resume id) (hrun : s.desk.running id = some (fileName, phase))
    (h : s.resume id fileName phase = some s') :
    Effect s.desk s.written l s'.desk s'.written := by
  cases phase with
  | parsed proofData =>
    cases proofData with
    | none =>
      obtain rfl := Option.some.inj h
      exact .gaveUp hl hrun
    | some proofData =>
      obtain rfl := Option.some.inj h
      exact .moved hrun nofun nofun
  | converted result =>
    cases result with
    | none =>
      obtain rfl := Option.some.inj h
      exact .failed hrun nofun
    | some convertedProof =>
      obtain rfl := Option.some.inj h
      exact .moved hrun nofun nofun
  | saved succeeded =>
    cases succeeded with
    | true =>
      obtain rfl := Option.some.inj h
      exact .succeeded hrun
    | false =>
      obtain rfl := Option.some.inj h
      exact .failed hrun nofun
  | reading => cases h
  | converting _ => cases h
  | saving _ => cases h

/-- **Every step has one of the effects.** -/
theorem step_effect (h : step s l = some s') : Effect s.desk s.written l s'.desk s'.written := by
  cases l with
  | readdir files =>
    simp only [step] at h
    split at h
    · obtain rfl := Option.some.inj h
      exact .same
    · cases h
  | next =>
    simp only [step] at h
    split at h
    · split at h
      · obtain rfl := Option.some.inj h
        exact processNext_effect s _
      · cases h
    · cases h
  | add file =>
    simp only [step] at h
    split at h
    · obtain rfl := Option.some.inj h
      exact processProofFile_effect s file
    · cases h
  | read id file =>
    simp only [step] at h
    split at h
    case h_1 fileName hrun =>
      obtain rfl := Option.some.inj h
      exact .moved hrun nofun nofun
    case h_2 => cases h
  | converted id result =>
    simp only [step] at h
    split at h
    case h_1 fileName _ hrun =>
      obtain rfl := Option.some.inj h
      exact .moved hrun nofun nofun
    case h_2 => cases h
  | written id succeeded =>
    simp only [step] at h
    split at h
    case h_1 fileName convertedProof hrun =>
      obtain rfl := Option.some.inj h
      cases succeeded with
      | true => exact .saved hrun
      | false => exact .moved hrun nofun nofun
    case h_2 => cases h
  | resume id =>
    simp only [step] at h
    split at h
    case h_1 fileName phase hrun => exact resume_effect rfl hrun h
    case h_2 => cases h
  | shutdown =>
    obtain rfl := Option.some.inj h
    exact .same

/-! ## The invariant -/

/-- **What every run keeps**, whatever fails: at most one attempt for a name, which is
processed then; an attempt has saved its file if it is at that point; and a saved file stays
processed. -/
structure Sound (desk : Desk String (Phase C)) (written : List (ConvertedProof C)) : Prop where
  guarded : desk.Guarded
  saved_iff : ∀ id fileName phase, desk.running id = some (fileName, phase) →
    (Saved written fileName ↔ phase = .saved true)
  processed : ∀ fileName, Saved written fileName → fileName ∈ desk.claimed

theorem sound_start : Sound (Service.start : Service C).desk (Service.start : Service C).written :=
  ⟨Desk.guarded_empty, fun _ _ _ h => (nomatch h), fun _ ⟨_, h, _⟩ => (nomatch h)⟩

theorem saved_append {p : ConvertedProof C} {name : String} :
    Saved (written ++ [p]) name ↔ Saved written name ∨ p.originalFile = name := by
  simp only [Saved, List.mem_append, List.mem_singleton, or_and_right, exists_or, exists_eq_left]

theorem Effect.sound (h : Effect desk written l desk' written') (hs : Sound desk written) :
    Sound desk' written' := by
  cases h with
  | same => exact hs
  | @started fileName hnew =>
    refine ⟨hs.guarded.start hnew, fun id' name phase' hrun => ?_, fun name hsaved =>
      Finset.mem_insert_of_mem (hs.processed name hsaved)⟩
    rcases Fleets.update_eq_some hrun with ⟨-, heq⟩ | ⟨-, hold⟩
    · cases heq
      exact iff_of_false (fun hsaved => hnew (hs.processed _ hsaved)) nofun
    · exact hs.saved_iff id' name phase' hold
  | @moved id fileName phase phase' hrun hne hne' =>
    refine ⟨hs.guarded.move hrun, fun id' name phase₁ hrun' => ?_, hs.processed⟩
    rcases Fleets.update_eq_some hrun' with ⟨-, heq⟩ | ⟨-, hold⟩
    · cases heq
      exact iff_of_false (fun hsaved => hne ((hs.saved_iff _ _ _ hrun).mp hsaved)) hne'
    · exact hs.saved_iff id' name phase₁ hold
  | @saved id fileName convertedProof hrun =>
    refine ⟨hs.guarded.move hrun, fun id' name phase₁ hrun' => ?_, fun name hsaved => ?_⟩
    · rcases Fleets.update_eq_some hrun' with ⟨-, heq⟩ | ⟨hid, hold⟩
      · cases heq
        exact iff_of_true (saved_append.mpr (.inr rfl)) rfl
      · rw [saved_append, hs.saved_iff id' name phase₁ hold]
        -- The file is not the one of another attempt.
        have hother : fileName ≠ name := by
          rintro rfl
          exact hid (hs.guarded.unique _ _ _ _ _ hold hrun)
        exact or_iff_left hother
    · rcases saved_append.mp hsaved with hsaved | rfl
      · exact hs.processed name hsaved
      · exact hs.guarded.claimed id _ _ hrun
  | @gaveUp id fileName hl hrun =>
    exact ⟨hs.guarded.finish,
      fun id' name phase' hrun' => hs.saved_iff id' name phase' (Desk.running_of_ended hrun').2,
      hs.processed⟩
  | @succeeded id fileName hrun =>
    exact ⟨hs.guarded.finish,
      fun id' name phase' hrun' => hs.saved_iff id' name phase' (Desk.running_of_ended hrun').2,
      hs.processed⟩
  | @failed id fileName phase hrun hne =>
    refine ⟨hs.guarded.release hrun,
      fun id' name phase' hrun' => hs.saved_iff id' name phase' (Desk.running_of_ended hrun').2,
      fun name hsaved => Finset.mem_erase.mpr ⟨?_, hs.processed name hsaved⟩⟩
    rintro rfl
    exact hne ((hs.saved_iff _ _ _ hrun).mp hsaved)

/-- **Unless an attempt gives up**, what is processed and not in progress has been saved. -/
theorem Effect.settled (h : Effect desk written l desk' written') (hs : Sound desk written)
    (hsettled : desk.Settled (Saved written))
    (hgives : ∀ id fileName, l = .resume id → desk.running id ≠ some (fileName, .parsed none)) :
    desk'.Settled (Saved written') := by
  cases h with
  | same => exact hsettled
  | started hnew => exact hsettled.start hs.guarded.nextId_free
  | moved hrun _ _ => exact hsettled.move hrun
  | saved hrun =>
    exact (hsettled.mono fun _ hsaved => saved_append.mpr (.inl hsaved)).move hrun
  | gaveUp hl hrun => exact absurd hrun (hgives _ _ hl)
  | succeeded hrun => exact hsettled.finish hrun ((hs.saved_iff _ _ _ hrun).mpr rfl)
  | failed hrun _ => exact hsettled.release hrun

/-! ## Runs -/

theorem kept_of_settled (hs : Sound s.desk s.written)
    (hsettled : s.desk.Settled (Saved s.written)) : Kept s where
  one := hs.guarded.unique
  saved := hsettled
  retried := by
    intro hrunning name hidle hunsaved
    have hnew : ¬ (name ∈ s.processedFiles ∨ s.isShuttingDown = true) := by
      rintro (hmem | hdown)
      · exact hunsaved (hsettled name hmem hidle)
      · rw [hrunning] at hdown
        cases hdown
    rw [Service.processProofFile, if_neg hnew]
    rfl

/-- **An attempt that gives up** leaves its name processed, with nothing saved. -/
theorem not_kept_of_givesUp (hs : Sound s.desk s.written) (hgives : givesUp s l = true)
    (h : step s l = some s') : ¬ Kept s' := by
  obtain ⟨id, fileName, rfl, hrun⟩ := givesUp_iff.mp hgives
  simp only [step, hrun, Service.resume] at h
  obtain rfl := Option.some.inj h
  intro hkept
  have hsaved := hkept.saved fileName (hs.guarded.claimed id _ _ hrun)
    (hs.guarded.idle_finish hrun)
  cases (hs.saved_iff id _ _ hrun).mp hsaved

/-- **One attempt for a name**, in every state of every run. -/
theorem sound_run {tr : List (Taken (Service C) (Label C))}
    (hrun : Run (takenOf step) Service.start tr s) : Sound s.desk s.written :=
  hrun.invariant (I := fun s => Sound s.desk s.written)
    (fun _ _ _ hs ⟨_, _, hstep⟩ => (step_effect hstep).sound hs) sound_start

theorem not_givesUp_of_kept {tr : List (Taken (Service C) (Label C))}
    (hrun : Run (takenOf step) Service.start tr s) (h : ∀ e ∈ tr, Kept e.post) :
    ∀ e ∈ tr, givesUp e.pre e.label = false := by
  intro e he
  obtain ⟨before, after, rfl⟩ := List.append_of_mem he
  obtain ⟨a, b, ha, ⟨rfl, rfl, hstep⟩, -⟩ := hrun.of_append_cons
  rw [Bool.eq_false_iff]
  exact fun hgives => not_kept_of_givesUp (sound_run ha) hgives hstep (h e he)

theorem kept_of_not_givesUp {tr : List (Taken (Service C) (Label C))}
    (hrun : Run (takenOf step) Service.start tr s)
    (h : ∀ e ∈ tr, givesUp e.pre e.label = false) :
    s.desk.Settled (Saved s.written) ∧ ∀ e ∈ tr, Kept e.post := by
  induction hrun with
  | nil => exact ⟨fun _ hmem => (nomatch hmem), fun _ he => (nomatch he)⟩
  | snoc hr hs ih =>
    obtain ⟨hsettled, hkept⟩ := ih fun e he => h e (List.mem_append_left _ he)
    obtain ⟨rfl, rfl, hstep⟩ := hs
    have heffect := step_effect hstep
    have hsound := sound_run hr
    have hcontinues := h _ (List.mem_append_right _ List.mem_cons_self)
    have hnext := heffect.settled hsound hsettled fun id fileName hl hrunning => by
      rw [givesUp_iff.mpr ⟨id, fileName, hl, hrunning⟩] at hcontinues
      cases hcontinues
    refine ⟨hnext, fun e' he' => ?_⟩
    rcases List.mem_append.mp he' with he' | he'
    · exact hkept e' he'
    · obtain rfl := List.mem_singleton.mp he'
      exact kept_of_settled (heffect.sound hsound) hnext

/-- **When the bookkeeping is right.**  For every run of the service, with any files, any
events of the watcher and any outcome of each read, parse, conversion and write, in any
order: it is right after every step exactly if no attempt gives up after a failed read or
parse. -/
theorem bookkeeping_iff {tr : List (Taken (Service C) (Label C))}
    (hrun : Run (takenOf step) Service.start tr s) :
    (∀ e ∈ tr, Kept e.post) ↔ ∀ e ∈ tr, givesUp e.pre e.label = false :=
  ⟨not_givesUp_of_kept hrun, fun h => (kept_of_not_givesUp hrun h).2⟩

/-! ### Two files -/

/-- An existing file is converted and saved; the watcher reports it again meanwhile, and
another file, whose conversion throws. -/
def exampleConversions : List (Label Nat) :=
  [.readdir (some ["100_200.bin", "notes.txt"]), .next, .add "100_200.bin", .add "200_300.bin",
    .read 1 (some [1, 2]), .resume 1, .read 0 (some [3, 4]), .converted 1 none, .resume 0,
    .resume 1,
    .converted 0 (some 7), .resume 0, .add "200_300.bin", .written 0 true, .resume 0, .next]

theorem exampleConversions_run :
    Run (takenOf step) Service.start (takenAll step Service.start exampleConversions)
      (endOf step Service.start exampleConversions) :=
  run_takenAll (by decide)

theorem bookkeeping_example :
    (endOf step Service.start exampleConversions).written =
        [⟨"100_200_converted.json", "100_200.bin", 7⟩] ∧
      ∀ e ∈ takenAll step Service.start exampleConversions, Kept e.post :=
  ⟨by decide, (bookkeeping_iff exampleConversions_run).mpr (by decide)⟩

/-- The file cannot be read at first, and the watcher reports it again. -/
def exampleUnread : List (Label Nat) :=
  [.readdir (some ["100_200.bin"]), .next, .read 0 none, .resume 0, .next, .add "100_200.bin"]

/-- **The failing input.**  After the failed read the file counts as processed, and no
attempt is started for it. -/
theorem unread_file_stays_processed :
    Run (takenOf step) Service.start (takenAll step Service.start exampleUnread)
        (endOf step Service.start exampleUnread) ∧
      (¬ ∀ e ∈ takenAll step Service.start exampleUnread, Kept e.post) ∧
      (endOf step Service.start exampleUnread).written = [] ∧
      ((endOf step Service.start exampleUnread).processProofFile "100_200.bin").2 = none := by
  have hrun : Run (takenOf step) Service.start (takenAll step Service.start exampleUnread)
      (endOf step Service.start exampleUnread) := run_takenAll (by decide)
  refine ⟨hrun, fun hkept => ?_, by decide, by decide⟩
  exact absurd (not_givesUp_of_kept hrun hkept) (by decide)

end OpSuccinct.Conversion

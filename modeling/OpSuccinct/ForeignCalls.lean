import OpSuccinct.CallFrames

/-! # Calls that run foreign code

A call of a contract may hand control to foreign code before it ends.  That code may call back,
and it may fail: then what it did is undone, and the call that it interrupted learns that it
failed.  What the call does about it is up to the call, which goes on or reverts as well.  So
`CallStep` keeps in each frame which call it belongs to, and ends it by that call's own rest
(`Contract.resume`).

If all that a call does after its foreign code is to revert when that failed, then its runs are
runs inside call frames that may revert (`CallStep.toFrames`, `run_toFrames`), where the
invariants of `FrameStep` apply.  A call that reverts when its foreign code failed leaves no
trace (`failed_restores`).
-/
namespace OpSuccinct.Transition

variable {S L : Type}

/-- **A contract**: calls that run to their end, and calls that run foreign code in between. -/
structure Contract (S L : Type) where
  step : S → L → S → Prop
  /-- A call up to its foreign code: the state in which that starts, and the state that is given
  back to the call if it fails. -/
  send : S → L → S → S → Prop
  /-- The rest of the call, by whether the foreign code succeeded; nothing if it reverts. -/
  resume : L → Bool → S → Option S

/-- An open frame, with the state it was entered in: one of foreign code, or one of a call, with
the state that is given back to it if its foreign code fails. -/
inductive Frame (S L : Type)
  | foreign (entered : S)
  | call (entered : S) (l : L) (unsent : S)

def Frame.entered : Frame S L → S
  | .foreign entered => entered
  | .call entered _ _ => entered

/-- The current state, and the open frames, innermost first. -/
structure Calls (S L : Type) where
  current : S
  frames : List (Frame S L)

inductive CallOp (L : Type)
  | enter
  | call (l : L)
  | send (l : L)
  | ended (success : Bool)
  | returned
  | reverted

/-- The call that an operation makes. -/
def CallOp.made : CallOp L → Option L
  | .call l => some l
  | .send l => some l
  | _ => none

/-- **One step of a contract inside call frames.**  Foreign code ends with success or not; in a
call it gives control back to that call, which ends or reverts.  Any frame may revert, for lack
of gas say. -/
inductive CallStep (c : Contract S L) : Calls S L → CallOp L → Calls S L → Prop
  | enter (a : S) (frames : List (Frame S L)) :
      CallStep c ⟨a, frames⟩ .enter ⟨a, .foreign a :: frames⟩
  | call (a b : S) (frames : List (Frame S L)) (l : L) :
      c.step a l b → CallStep c ⟨a, frames⟩ (.call l) ⟨b, frames⟩
  | send (a b unsent : S) (frames : List (Frame S L)) (l : L) :
      c.send a l b unsent → CallStep c ⟨a, frames⟩ (.send l) ⟨b, .call a l unsent :: frames⟩
  | resumed (a b entered unsent : S) (frames : List (Frame S L)) (l : L) (success : Bool) :
      c.resume l success (if success then a else unsent) = some b →
      CallStep c ⟨a, .call entered l unsent :: frames⟩ (.ended success) ⟨b, frames⟩
  | refused (a entered unsent : S) (frames : List (Frame S L)) (l : L) (success : Bool) :
      c.resume l success (if success then a else unsent) = none →
      CallStep c ⟨a, .call entered l unsent :: frames⟩ (.ended success) ⟨entered, frames⟩
  | returned (a entered : S) (frames : List (Frame S L)) :
      CallStep c ⟨a, .foreign entered :: frames⟩ .returned ⟨a, frames⟩
  | reverted (a : S) (frame : Frame S L) (frames : List (Frame S L)) :
      CallStep c ⟨a, frame :: frames⟩ .reverted ⟨frame.entered, frames⟩

variable {c : Contract S L} {R : S → L → S → Prop} {s s₁ s₂ s₃ t : Calls S L}
  {tr : List (CallOp L)} {l : L}

/-! ## As frames that may revert -/

/-- The state with its frames, whatever they belong to. -/
def Calls.toFrames (s : Calls S L) : Frames S := ⟨s.current, s.frames.map Frame.entered⟩

/-- The calls up to their foreign code are steps of `R`, and after it they do nothing but revert
if that failed. -/
structure Contract.Within (c : Contract S L) (R : S → L → S → Prop) : Prop where
  step : ∀ {a l b}, c.step a l b → R a l b
  send : ∀ {a l b unsent}, c.send a l b unsent → R a l b
  resume : ∀ {l success a b}, c.resume l success a = some b → success = true ∧ b = a

theorem CallStep.toFrames {op : CallOp L} (hc : c.Within R) (h : CallStep c s op t) :
    ∃ tr, Run (FrameStep R) s.toFrames tr t.toFrames ∧ ∀ l, .call l ∈ tr → op.made = some l := by
  cases h with
  | enter a frames => exact ⟨_, .single (.enter _ _), by simp⟩
  | call a b frames l hstep =>
    exact ⟨[.call l], .single (.call _ _ _ l (hc.step hstep)), by simp [CallOp.made]⟩
  | send a b unsent frames l hsend =>
    exact ⟨[.enter, .call l], .cons (.enter _ _) (.single (.call _ _ _ l (hc.send hsend))),
      by simp [CallOp.made]⟩
  | resumed a b entered unsent frames l success hresume =>
    obtain ⟨rfl, rfl⟩ := hc.resume hresume
    exact ⟨_, .single (.returned _ _ _), by simp⟩
  | refused a entered unsent frames l success hresume =>
    exact ⟨_, .single (.reverted _ _ _), by simp⟩
  | returned a entered frames => exact ⟨_, .single (.returned _ _ _), by simp⟩
  | reverted a frame frames => exact ⟨_, .single (.reverted _ _ _), by simp⟩

/-- **A run of a contract is a run inside frames that may revert**, with the same calls. -/
theorem run_toFrames (hc : c.Within R) (hrun : Run (CallStep c) s tr t) :
    ∃ tr', Run (FrameStep R) s.toFrames tr' t.toFrames ∧
      ∀ l, .call l ∈ tr' → ∃ op ∈ tr, op.made = some l := by
  refine hrun.traceInvariant (I := fun tr t => ∃ tr', Run (FrameStep R) s.toFrames tr' t.toFrames ∧
    ∀ l, .call l ∈ tr' → ∃ op ∈ tr, op.made = some l) ?_ ⟨[], .nil, by simp⟩
  rintro tr a op b ⟨before, hbefore, hcalls⟩ hstep
  obtain ⟨after, hafter, hmade⟩ := hstep.toFrames hc
  refine ⟨before ++ after, hbefore.trans hafter, fun l hl => ?_⟩
  rcases List.mem_append.mp hl with hl | hl
  · obtain ⟨op', hop', hl'⟩ := hcalls l hl
    exact ⟨op', List.mem_append_left _ hop', hl'⟩
  · exact ⟨op, by simp, hmade l hl⟩

/-! ## Foreign code that fails -/

/-- **A call whose foreign code failed leaves no trace**, if it reverts then: whatever that code
did meanwhile, in calls of its own and in deeper frames, the state is the one the call was made
in. -/
theorem failed_restores (hfail : ∀ l a, c.resume l false a = none)
    (hsend : CallStep c s (.send l) s₁)
    (hrun : Run (fun a op b => CallStep c a op b ∧ s.frames.length < b.frames.length) s₁ tr s₂)
    (hdepth : s₂.frames.length = s.frames.length + 1) (hended : CallStep c s₂ (.ended false) s₃) :
    s₃ = s := by
  have hframe : ∃ inner unsent, s₂.frames = inner ++ .call s.current l unsent :: s.frames := by
    refine hrun.invariant (I := fun t => ∃ inner unsent,
      t.frames = inner ++ .call s.current l unsent :: s.frames) ?_ ?_
    · rintro a op b ⟨inner, unsent, hinner⟩ ⟨hab, hlen⟩
      -- a frame that ends is an inner one, or the step would leave the call
      have hpop : ∀ {frame : Frame S L} {frames}, a.frames = frame :: frames →
          s.frames.length < frames.length →
          ∃ inner, frames = inner ++ .call s.current l unsent :: s.frames := by
        intro frame frames ha hlt
        rw [hinner] at ha
        cases inner with
        | nil =>
          obtain rfl := (List.cons.inj ha).2
          exact absurd hlt (Nat.lt_irrefl _)
        | cons x inner => exact ⟨inner, (List.cons.inj ha).2.symm⟩
      cases hab with
      | enter a frames => exact ⟨.foreign a :: inner, unsent, by simpa using hinner⟩
      | call a b frames l' _ => exact ⟨inner, unsent, hinner⟩
      | send a b unsent' frames l' _ =>
        exact ⟨.call a l' unsent' :: inner, unsent, by simpa using hinner⟩
      | resumed | refused | returned | reverted =>
        obtain ⟨inner, hframes⟩ := hpop rfl hlen
        exact ⟨inner, unsent, hframes⟩
    · cases hsend with
      | send a b unsent frames l _ => exact ⟨[], unsent, rfl⟩
  obtain ⟨inner, unsent, hinner⟩ := hframe
  have hnil : inner = [] := by
    rw [hinner] at hdepth
    simp only [List.length_append, List.length_cons] at hdepth
    exact List.eq_nil_of_length_eq_zero (by omega)
  rw [hnil, List.nil_append] at hinner
  cases hended with
  | resumed a b entered unsent' frames l' _ hresume =>
    rw [hfail] at hresume
    cases hresume
  | refused a entered unsent' frames l' _ _ =>
    obtain ⟨hcall, hframes⟩ := List.cons.inj hinner
    obtain ⟨rfl, -, -⟩ := Frame.call.inj hcall
    obtain rfl : frames = s.frames := hframes
    rfl

end OpSuccinct.Transition

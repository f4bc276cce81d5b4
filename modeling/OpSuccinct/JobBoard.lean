import Mathlib.Data.Set.Subsingleton
import Mathlib.Logic.Function.Basic
import Mathlib.Logic.Relation

/-! # Tasks launched by parties and put on a board

A party that wants a job done sets out for it, takes a key, launches a task under the key
and posts the task on the board.  Between any two of these moves other parties move and
tasks end, and what has ended is taken off the board.

Every running task is posted, or the party that launched it is about to post it
(`Board.Tracked`), whatever the order of the moves.  That nobody else is on a job
(`Board.Exclusive`) stays true as long as parties set out for free jobs only: once two are on
their way to one job, nothing keeps both from launching a task.
-/
namespace OpSuccinct.Jobs

/-- What a party is doing. -/
inductive Errand (J K : Type)
  | idle
  | heading (job : J) (key : Option K)
  | posting (job : J) (key : K)

/-- What became of a launched task. -/
inductive TaskState (J : Type)
  | running (job : J)
  | ended

/-- The errands of the parties, the tasks launched, the board and the keys taken. -/
@[ext]
structure Board (P J K : Type) where
  errand : P → Errand J K
  tasks : K → Option (TaskState J)
  posted : Set (K × J)
  taken : Set K

/-- A party on its way to a job, or a task running on it. -/
inductive Engaged {P J K : Type} (b : Board P J K) (job : J) : P ⊕ K → Prop
  | party {p : P} {key : Option K} : b.errand p = .heading job key → Engaged b job (.inl p)
  | task {k : K} : b.tasks k = some (.running job) → Engaged b job (.inr k)

def Errand.key {J K : Type} : Errand J K → Option K
  | .idle => none
  | .heading _ key => key
  | .posting _ key => some key

namespace Board
variable {P J K : Type} (b : Board P J K)

/-- Nobody is on the job. -/
def Free (job : J) : Prop := ∀ e, ¬ Engaged b job e

/-- **At most one is on the job.** -/
def Exclusive (job : J) : Prop := {e | Engaged b job e}.Subsingleton

/-- The board says the task runs on the job, or the party that launched it is about to
say so. -/
def Accounted (k : K) (job : J) : Prop :=
  (k, job) ∈ b.posted ∨ ∃ p, b.errand p = .posting job k

/-- **Every running task is accounted for.**  Keys are taken, and held by one party at a
time; a party's key is fresh until it launches its task. -/
structure Tracked : Prop where
  accounted : ∀ k job, b.tasks k = some (.running job) → b.Accounted k job
  posting_job : ∀ p job k, b.errand p = .posting job k →
    ∀ job', b.tasks k = some (.running job') → job' = job
  fresh : ∀ p job k, b.errand p = .heading job (some k) → b.tasks k = none
  key_inj : ∀ p p' k, (b.errand p).key = some k → (b.errand p').key = some k → p = p'
  key_taken : ∀ p k, (b.errand p).key = some k → k ∈ b.taken
  task_taken : ∀ k state, b.tasks k = some state → k ∈ b.taken

/-! ## Moves -/

def take (k : K) : Board P J K := { b with taken := insert k b.taken }

/-- The board without the key. -/
def unpost (k : K) : Board P J K := { b with posted := {e ∈ b.posted | e.1 ≠ k} }

/-- The board with a new entry for the key. -/
def post (k : K) (job : J) : Board P J K :=
  { b with posted := insert (k, job) (b.unpost k).posted }

@[simp] theorem errand_take (k : K) : (b.take k).errand = b.errand := rfl
@[simp] theorem tasks_take (k : K) : (b.take k).tasks = b.tasks := rfl

@[simp] theorem errand_unpost (k : K) : (b.unpost k).errand = b.errand := rfl
@[simp] theorem tasks_unpost (k : K) : (b.unpost k).tasks = b.tasks := rfl

@[simp] theorem errand_post (k : K) (job : J) : (b.post k job).errand = b.errand := rfl
@[simp] theorem tasks_post (k : K) (job : J) : (b.post k job).tasks = b.tasks := rfl

/-- A party's next errand. -/
def send [DecidableEq P] (p : P) (errand : Errand J K) : Board P J K :=
  { b with errand := Function.update b.errand p errand }

/-- What a task is next. -/
def setTask [DecidableEq K] (k : K) (state : TaskState J) : Board P J K :=
  { b with tasks := Function.update b.tasks k (some state) }

theorem errand_send [DecidableEq P] (p q : P) (e : Errand J K) :
    (b.send p e).errand q = if q = p then e else b.errand q := Function.update_apply _ _ _ _

@[simp] theorem tasks_send [DecidableEq P] (p : P) (e : Errand J K) :
    (b.send p e).tasks = b.tasks := rfl

theorem tasks_setTask [DecidableEq K] (k k' : K) (state : TaskState J) :
    (b.setTask k state).tasks k' = if k' = k then some state else b.tasks k' :=
  Function.update_apply _ _ _ _

@[simp] theorem errand_setTask [DecidableEq K] (k : K) (state : TaskState J) :
    (b.setTask k state).errand = b.errand := rfl

variable {b} in
theorem send_of_eq [DecidableEq P] {p : P} {e : Errand J K} (h : b.errand p = e) :
    b.send p e = b := by
  rw [send, ← h, Function.update_eq_self]

variable {b} in
theorem setTask_of_eq [DecidableEq K] {k : K} {state : TaskState J}
    (h : b.tasks k = some state) : b.setTask k state = b := by
  rw [setTask, ← h, Function.update_eq_self]

theorem send_send [DecidableEq P] (p : P) (e e' : Errand J K) :
    (b.send p e).send p e' = b.send p e' := by
  simp only [send, Function.update_idem]

variable [DecidableEq P] [DecidableEq K]

/-- A move of a party or a task, other than setting out. -/
inductive Quiet : Board P J K → Board P J K → Prop
  | takeKey {b : Board P J K} {p : P} {job : J} {k : K} : b.errand p = .heading job none →
      k ∉ b.taken → Quiet b ((b.send p (.heading job (some k))).take k)
  | giveUp {b : Board P J K} {p : P} {job : J} {key : Option K} :
      b.errand p = .heading job key → Quiet b (b.send p .idle)
  | launch {b : Board P J K} {p : P} {job : J} {k : K} : b.errand p = .heading job (some k) →
      Quiet b ((b.send p (.posting job k)).setTask k (.running job))
  | post {b : Board P J K} {p : P} {job : J} {k : K} : b.errand p = .posting job k →
      Quiet b ((b.send p .idle).post k job)
  | finish {b : Board P J K} {k : K} {job : J} : b.tasks k = some (.running job) →
      Quiet b (b.setTask k .ended)
  | unpost {b : Board P J K} {k : K} : b.tasks k = some .ended → Quiet b (b.unpost k)

/-- Any number of moves, none of which sets out. -/
abbrev Quietly : Board P J K → Board P J K → Prop := Relation.ReflTransGen Quiet

/-- A party sets out. -/
def SetsOut (b : Board P J K) (p : P) (job : J) (c : Board P J K) : Prop :=
  b.errand p = .idle ∧ c = b.send p (.heading job none)

variable {b} {c : Board P J K} {p : P} {job : J} {k : K}

/-- A party on its way takes a key and launches its task at once. -/
theorem quietly_spawn (hp : b.errand p = .heading job none) (hk : k ∉ b.taken) :
    Quietly b (((b.send p (.posting job k)).setTask k (.running job)).take k) := by
  have hkeyed : ((b.send p (.heading job (some k))).take k).errand p = .heading job (some k) := by
    rw [errand_take, errand_send, if_pos rfl]
  have hlaunch := Quiet.launch hkeyed
  have heq : ((b.send p (.heading job (some k))).take k).send p (.posting job k) =
      (b.send p (.posting job k)).take k := congrArg (take · k) (send_send b p _ _)
  rw [heq] at hlaunch
  exact .tail (.single (.takeKey hp hk)) hlaunch

/-- A party that sets out takes a key first. -/
theorem setsOut_keyed (job : J) (hp : b.errand p = .idle) (hk : k ∉ b.taken) :
    ∃ c, SetsOut b p job c ∧ Quiet c ((b.send p (.heading job (some k))).take k) := by
  refine ⟨b.send p (.heading job none), ⟨hp, rfl⟩, ?_⟩
  have hheading : (b.send p (.heading job none)).errand p = .heading job none := by
    rw [errand_send, if_pos rfl]
  have hmove := Quiet.takeKey hheading hk
  rwa [send_send] at hmove

/-! ## Tracked tasks -/

omit [DecidableEq K] in
/-- An errand without a task to post, and with no key that is not fresh, can replace one
that is not about to post. -/
theorem Tracked.send (h : b.Tracked) {e : Errand J K} (hpost : ∀ job k, b.errand p ≠ .posting job k)
    (hpost' : ∀ job k, e ≠ .posting job k)
    (hkey : ∀ k, e.key = some k → (b.errand p).key = some k) : (b.send p e).Tracked where
  accounted := by
    intro k job hk
    obtain hposted | ⟨q, hq⟩ := h.accounted k job hk
    · exact .inl hposted
    · have hne : q ≠ p := fun heq => hpost job k (heq ▸ hq)
      exact .inr ⟨q, by rw [errand_send, if_neg hne, hq]⟩
  posting_job := by
    intro q job k hq
    rw [errand_send] at hq
    split at hq
    · exact absurd hq (hpost' job k)
    · exact h.posting_job q job k hq
  fresh := by
    intro q job k hq
    rw [errand_send] at hq
    split at hq
    · have hheld := hkey k (by rw [hq]; rfl)
      cases hp : b.errand p with
      | idle => rw [hp] at hheld; cases hheld
      | heading job' key =>
        rw [hp] at hheld
        obtain rfl : key = some k := hheld
        exact h.fresh p job' k hp
      | posting job' k' => exact absurd hp (hpost job' k')
    · exact h.fresh q job k hq
  key_inj := by
    intro q q' k hq hq'
    have hheld : ∀ r, ((b.send p e).errand r).key = some k → (b.errand r).key = some k := by
      intro r hr
      rw [errand_send] at hr
      split at hr
      · rename_i heq
        rw [heq]
        exact hkey k hr
      · exact hr
    exact h.key_inj q q' k (hheld q hq) (hheld q' hq')
  key_taken := by
    intro q k hq
    rw [errand_send] at hq
    split at hq
    · exact h.key_taken p k (hkey k hq)
    · exact h.key_taken q k hq
  task_taken := h.task_taken

omit [DecidableEq K] in
theorem Tracked.takeKey (h : b.Tracked) (hp : b.errand p = .heading job none)
    (hk : k ∉ b.taken) : ((b.send p (.heading job (some k))).take k).Tracked := by
  have hunheld : ∀ q, (b.errand q).key ≠ some k := fun q hq => hk (h.key_taken q k hq)
  refine ⟨?_, ?_, ?_, ?_, ?_, ?_⟩
  · intro k' job' hk'
    obtain hposted | ⟨q, hq⟩ := h.accounted k' job' hk'
    · exact .inl hposted
    · have hne : q ≠ p := by
        rintro rfl
        rw [hp] at hq
        cases hq
      exact .inr ⟨q, by rw [errand_take, errand_send, if_neg hne, hq]⟩
  · intro q job' k' hq
    rw [errand_take, errand_send] at hq
    split at hq
    · cases hq
    · exact h.posting_job q job' k' hq
  · intro q job' k' hq
    rw [errand_take, errand_send] at hq
    split at hq
    · cases hq
      cases htask : b.tasks k with
      | none => exact htask
      | some state => exact absurd (h.task_taken k state htask) hk
    · exact h.fresh q job' k' hq
  · -- Nobody held the new key.
    intro q q' k' hq hq'
    rw [errand_take, errand_send] at hq hq'
    split at hq <;> split at hq'
    · rename_i heq heq'
      rw [heq, heq']
    · cases hq
      exact absurd hq' (hunheld q')
    · cases hq'
      exact absurd hq (hunheld q)
    · exact h.key_inj q q' k' hq hq'
  · intro q k' hq
    rw [errand_take, errand_send] at hq
    split at hq
    · cases hq
      exact Set.mem_insert _ _
    · exact Set.mem_insert_of_mem _ (h.key_taken q k' hq)
  · intro k' state hk'
    exact Set.mem_insert_of_mem _ (h.task_taken k' state hk')

/-- A party with a fresh key is the only one to hold it. -/
theorem Tracked.launch (h : b.Tracked) (hp : b.errand p = .heading job (some k)) :
    ((b.send p (.posting job k)).setTask k (.running job)).Tracked := by
  have hheld : (b.errand p).key = some k := by rw [hp]; rfl
  have hkey : ∀ q, (((b.send p (.posting job k)).setTask k (.running job)).errand q).key =
      (b.errand q).key := by
    intro q
    rw [errand_setTask, errand_send]
    split
    · rename_i heq
      rw [heq, hheld]
      rfl
    · rfl
  refine ⟨?_, ?_, ?_, ?_, ?_, ?_⟩
  · intro k' job' hk'
    rw [tasks_setTask] at hk'
    split at hk'
    · rename_i heq
      cases hk'
      exact .inr ⟨p, by rw [errand_setTask, errand_send, if_pos rfl, heq]⟩
    · obtain hposted | ⟨q, hq⟩ := h.accounted k' job' hk'
      · exact .inl hposted
      · have hne : q ≠ p := by
          rintro rfl
          rw [hp] at hq
          cases hq
        exact .inr ⟨q, by rw [errand_setTask, errand_send, if_neg hne, hq]⟩
  · intro q job' k' hq job'' hk'
    rw [errand_setTask, errand_send] at hq
    rw [tasks_setTask] at hk'
    split at hq
    · cases hq
      rw [if_pos rfl] at hk'
      cases hk'
      rfl
    · rename_i hne
      split at hk'
      · rename_i heq
        exact absurd (h.key_inj q p k (by rw [hq, heq]; rfl) hheld) hne
      · exact h.posting_job q job' k' hq job'' hk'
  · intro q job' k' hq
    rw [errand_setTask, errand_send] at hq
    split at hq
    · cases hq
    · rename_i hne
      have hne' : k' ≠ k := fun heq => hne (h.key_inj q p k (by rw [hq, heq]; rfl) hheld)
      rw [tasks_setTask, if_neg hne']
      exact h.fresh q job' k' hq
  · intro q q' k' hq hq'
    rw [hkey] at hq hq'
    exact h.key_inj q q' k' hq hq'
  · intro q k' hq
    rw [hkey] at hq
    exact h.key_taken q k' hq
  · intro k' state hk'
    rw [tasks_setTask] at hk'
    split at hk'
    · rename_i heq
      rw [heq]
      exact h.key_taken p k hheld
    · exact h.task_taken k' state hk'

omit [DecidableEq K] in
theorem Tracked.post (h : b.Tracked) (hp : b.errand p = .posting job k) :
    ((b.send p .idle).post k job).Tracked := by
  have hposting : ∀ q errand, ((b.send p .idle).post k job).errand q = errand → errand ≠ .idle →
      q ≠ p ∧ b.errand q = errand := by
    intro q errand hq hidle
    rw [errand_post, errand_send] at hq
    split at hq
    · exact absurd hq.symm hidle
    · rename_i hne
      exact ⟨hne, hq⟩
  have hkey : ∀ q k', (((b.send p .idle).post k job).errand q).key = some k' →
      (b.errand q).key = some k' := by
    intro q k' hq
    rw [errand_post, errand_send] at hq
    split at hq
    · cases hq
    · exact hq
  refine ⟨?_, ?_, ?_, ?_, ?_, ?_⟩
  · -- The entry replaces the one under the same key, if there is one.
    intro k' job' hk'
    by_cases hkk : k' = k
    · subst hkk
      rw [h.posting_job p job k' hp job' hk']
      exact .inl (Set.mem_insert _ _)
    · obtain hposted | ⟨q, hq⟩ := h.accounted k' job' hk'
      · exact .inl (Set.mem_insert_of_mem _ ⟨hposted, hkk⟩)
      · have hne : q ≠ p := by
          rintro rfl
          rw [hp] at hq
          cases hq
          exact hkk rfl
        exact .inr ⟨q, by rw [errand_post, errand_send, if_neg hne, hq]⟩
  · intro q job' k' hq
    exact h.posting_job q job' k' (hposting q _ hq (by simp)).2
  · intro q job' k' hq
    exact h.fresh q job' k' (hposting q _ hq (by simp)).2
  · intro q q' k' hq hq'
    exact h.key_inj q q' k' (hkey q k' hq) (hkey q' k' hq')
  · intro q k' hq
    exact h.key_taken q k' (hkey q k' hq)
  · exact h.task_taken

omit [DecidableEq P] in
theorem Tracked.finish (h : b.Tracked) (hk : b.tasks k = some (.running job)) :
    (b.setTask k .ended).Tracked := by
  have hrunning : ∀ k' job', (b.setTask k .ended).tasks k' = some (.running job') →
      b.tasks k' = some (.running job') := by
    intro k' job' hk'
    rw [tasks_setTask] at hk'
    split at hk'
    · cases hk'
    · exact hk'
  refine ⟨?_, ?_, ?_, h.key_inj, h.key_taken, ?_⟩
  · intro k' job' hk'
    exact h.accounted k' job' (hrunning k' job' hk')
  · intro q job' k' hq job'' hk'
    exact h.posting_job q job' k' hq job'' (hrunning k' job'' hk')
  · intro q job' k' hq
    have hfresh := h.fresh q job' k' hq
    have hne : k' ≠ k := by
      rintro rfl
      rw [hk] at hfresh
      cases hfresh
    rw [tasks_setTask, if_neg hne, hfresh]
  · intro k' state hk'
    rw [tasks_setTask] at hk'
    split at hk'
    · rename_i heq
      rw [heq]
      exact h.task_taken k _ hk
    · exact h.task_taken k' state hk'

omit [DecidableEq P] [DecidableEq K] in
theorem Tracked.unpost (h : b.Tracked) (hk : b.tasks k = some .ended) : (b.unpost k).Tracked where
  accounted := by
    intro k' job' hk'
    have hne : k' ≠ k := by
      rintro rfl
      rw [tasks_unpost, hk] at hk'
      cases hk'
    obtain hposted | hposting := h.accounted k' job' hk'
    · exact .inl ⟨hposted, hne⟩
    · exact .inr hposting
  posting_job := h.posting_job
  fresh := h.fresh
  key_inj := h.key_inj
  key_taken := h.key_taken
  task_taken := h.task_taken

theorem Tracked.quiet (h : b.Tracked) (hmove : Quiet b c) : c.Tracked := by
  cases hmove with
  | takeKey hp hk => exact h.takeKey hp hk
  | giveUp hp => exact h.send (by simp [hp]) (by simp) (fun _ hkey => by cases hkey)
  | launch hp => exact h.launch hp
  | post hp => exact h.post hp
  | finish hk => exact h.finish hk
  | unpost hk => exact h.unpost hk

/-- **No moves lose a running task.** -/
theorem Tracked.quietly (h : b.Tracked) (hmoves : Quietly b c) : c.Tracked := by
  induction hmoves with
  | refl => exact h
  | tail _ hmove ih => exact ih.quiet hmove

omit [DecidableEq K] in
theorem Tracked.setsOut (h : b.Tracked) (hout : SetsOut b p job c) : c.Tracked := by
  obtain ⟨hp, rfl⟩ := hout
  exact h.send (by simp [hp]) (by simp) (fun _ hkey => by cases hkey)

/-- What has ended stays so, for its key is not fresh. -/
theorem Tracked.ended_quiet (h : b.Tracked) (hmove : Quiet b c) (hk : b.tasks k = some .ended) :
    c.tasks k = some .ended := by
  cases hmove with
  | takeKey _ _ => exact hk
  | giveUp _ => exact hk
  | launch hp =>
    have hfresh := h.fresh _ _ _ hp
    rw [tasks_setTask, if_neg]
    · exact hk
    · rintro rfl
      rw [hk] at hfresh
      cases hfresh
  | post _ => exact hk
  | finish _ =>
    rw [tasks_setTask]
    split
    · rfl
    · exact hk
  | unpost _ => exact hk

theorem Tracked.ended_quietly (h : b.Tracked) (hmoves : Quietly b c)
    (hk : b.tasks k = some .ended) : c.tasks k = some .ended := by
  induction hmoves with
  | refl => exact hk
  | tail hmoves hmove ih => exact (h.quietly hmoves).ended_quiet hmove ih

/-- A party without an errand gets one only by setting out. -/
theorem idle_quietly (hmoves : Quietly b c) (hp : b.errand p = .idle) : c.errand p = .idle := by
  have hsend : ∀ (b : Board P J K) (q : P) (e : Errand J K), b.errand q ≠ .idle →
      b.errand p = .idle → (b.send q e).errand p = .idle := by
    intro b q e hq hp
    have hne : p ≠ q := fun heq => hq (heq ▸ hp)
    rw [errand_send, if_neg hne, hp]
  induction hmoves with
  | refl => exact hp
  | tail _ hmove ih =>
    cases hmove with
    | takeKey hq _ => exact hsend _ _ _ (by simp [hq]) ih
    | giveUp hq => exact hsend _ _ _ (by simp [hq]) ih
    | launch hq => exact hsend _ _ _ (by simp [hq]) ih
    | post hq => exact hsend _ _ _ (by simp [hq]) ih
    | finish _ => exact ih
    | unpost _ => exact ih

omit [DecidableEq P] [DecidableEq K] in
theorem tracked_of_idle (herrand : ∀ p, b.errand p = .idle) (htasks : ∀ k, b.tasks k = none) :
    b.Tracked where
  accounted := fun k job hk => by rw [htasks] at hk; cases hk
  posting_job := fun p job k hp => by rw [herrand] at hp; cases hp
  fresh := fun p job k hp => by rw [herrand] at hp; cases hp
  key_inj := fun p p' k hp => by rw [herrand] at hp; cases hp
  key_taken := fun p k hp => by rw [herrand] at hp; cases hp
  task_taken := fun k state hk => by rw [htasks] at hk; cases hk

/-! ## Exclusive jobs -/

omit [DecidableEq P] [DecidableEq K] in
theorem free_of_idle (herrand : ∀ p, b.errand p = .idle) (htasks : ∀ k, b.tasks k = none) :
    b.Free job := by
  intro e he
  cases he with
  | party hp => rw [herrand] at hp; cases hp
  | task hk => rw [htasks] at hk; cases hk

omit [DecidableEq P] [DecidableEq K] in
theorem Free.exclusive (h : b.Free job) : b.Exclusive job := fun e he => absurd he (h e)

omit [DecidableEq P] [DecidableEq K] in
theorem engaged_congr (herrand : c.errand = b.errand) (htasks : c.tasks = b.tasks) {e : P ⊕ K}
    (he : Engaged c job e) : Engaged b job e := by
  cases he with
  | party hq => exact .party (herrand ▸ hq)
  | task hk => exact .task (htasks ▸ hk)

omit [DecidableEq K] in
theorem engaged_send {errand : Errand J K} {e : P ⊕ K} (he : Engaged (b.send p errand) job e) :
    (e = .inl p ∧ ∃ key, errand = .heading job key) ∨ (e ≠ .inl p ∧ Engaged b job e) := by
  cases he with
  | party hq =>
    rw [errand_send] at hq
    split at hq
    · rename_i heq
      exact .inl ⟨by rw [heq], _, hq⟩
    · rename_i hne
      exact .inr ⟨by simpa using hne, .party hq⟩
  | task hk => exact .inr ⟨by simp, .task hk⟩

omit [DecidableEq P] in
theorem engaged_setTask {state : TaskState J} {e : P ⊕ K}
    (he : Engaged (b.setTask k state) job e) :
    (e = .inr k ∧ state = .running job) ∨ Engaged b job e := by
  cases he with
  | party hq => exact .inr (.party hq)
  | task hk =>
    rw [tasks_setTask] at hk
    split at hk
    · rename_i heq
      exact .inl ⟨by rw [heq], Option.some.inj hk⟩
    · exact .inr (.task hk)

/-- A launched task replaces the party that launched it. -/
theorem Exclusive.launch {job' : J} (h : b.Exclusive job)
    (hp : b.errand p = .heading job' (some k)) :
    ((b.send p (.posting job' k)).setTask k (.running job')).Exclusive job := by
  have hcases : ∀ e, Engaged ((b.send p (.posting job' k)).setTask k (.running job')) job e →
      (e = .inr k ∧ job' = job) ∨ (e ≠ .inl p ∧ Engaged b job e) := by
    intro e he
    obtain ⟨rfl, hjob⟩ | he := engaged_setTask he
    · cases hjob
      exact .inl ⟨rfl, rfl⟩
    · obtain ⟨-, key, hheading⟩ | he := engaged_send he
      · cases hheading
      · exact .inr he
  by_cases hjob : job' = job
  · subst hjob
    -- The party was the one on the job.
    apply Set.subsingleton_of_subset_singleton (a := .inr k)
    intro e he
    obtain ⟨rfl, -⟩ | ⟨hne, he⟩ := hcases e he
    · rfl
    · exact absurd (h he (.party hp)) hne
  · apply Set.Subsingleton.anti h
    intro e he
    obtain ⟨-, heq⟩ | ⟨-, he⟩ := hcases e he
    · exact absurd heq hjob
    · exact he

/-- **Nobody else comes to a job** unless a party sets out for it. -/
theorem Exclusive.quiet (h : b.Exclusive job) (hmove : Quiet b c) : c.Exclusive job := by
  cases hmove with
  | takeKey hp _ =>
    apply Set.Subsingleton.anti h
    intro e he
    obtain ⟨rfl, key, hheading⟩ | ⟨-, he⟩ :=
      engaged_send (engaged_congr (errand_take _ _) (tasks_take _ _) he)
    · cases hheading
      exact .party hp
    · exact he
  | giveUp _ =>
    apply Set.Subsingleton.anti h
    intro e he
    obtain ⟨-, key, hheading⟩ | ⟨-, he⟩ := engaged_send he
    · cases hheading
    · exact he
  | launch hp => exact h.launch hp
  | post _ =>
    apply Set.Subsingleton.anti h
    intro e he
    obtain ⟨-, key, hheading⟩ | ⟨-, he⟩ :=
      engaged_send (engaged_congr (errand_post _ _ _) (tasks_post _ _ _) he)
    · cases hheading
    · exact he
  | finish _ =>
    apply Set.Subsingleton.anti h
    intro e he
    obtain ⟨-, hstate⟩ | he := engaged_setTask he
    · cases hstate
    · exact he
  | unpost _ =>
    apply Set.Subsingleton.anti h
    intro e he
    exact engaged_congr (errand_unpost _ _) (tasks_unpost _ _) he

theorem Exclusive.quietly (h : b.Exclusive job) (hmoves : Quietly b c) : c.Exclusive job := by
  induction hmoves with
  | refl => exact h
  | tail _ hmove ih => exact ih.quiet hmove

omit [DecidableEq K] in
/-- A party that sets out for a free job, or for another one, keeps a job exclusive. -/
theorem Exclusive.setsOut {job' : J} (h : b.Exclusive job) (hout : SetsOut b p job' c)
    (hfree : job' = job → b.Free job) : c.Exclusive job := by
  obtain ⟨-, rfl⟩ := hout
  by_cases hjob : job' = job
  · apply Set.subsingleton_of_subset_singleton (a := .inl p)
    intro e he
    obtain ⟨rfl, -⟩ | ⟨-, he⟩ := engaged_send he
    · rfl
    · exact absurd he (hfree hjob e)
  · apply Set.Subsingleton.anti h
    intro e he
    obtain ⟨-, key, hheading⟩ | ⟨-, he⟩ := engaged_send he
    · cases hheading
      exact absurd rfl hjob
    · exact he

omit [DecidableEq P] [DecidableEq K] in
/-- Two tasks do not run on an exclusive job. -/
theorem Exclusive.task_unique (h : b.Exclusive job) {k' : K}
    (hk : b.tasks k = some (.running job)) (hk' : b.tasks k' = some (.running job)) : k = k' :=
  Sum.inr.inj (h (.task hk) (.task hk'))

end Board
end OpSuccinct.Jobs

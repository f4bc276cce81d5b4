import Mathlib.Algebra.Ring.Nat
import Mathlib.Logic.Function.Basic
import OpSuccinct.TransitionRuns

/-! # The to-do list of the example

`ZkTodoList` (`next-js-integration-example/src/lib/zkTodoList.ts`) is a recursive program: each
of its proofs has an indexed Merkle map as its public output, and shows that the map was made
from the map of an earlier proof.  A todo is never taken out of the map, and its leaf changes
once at most, when the todo is completed (`todos_kept`).

The worker (`app/todoListWorker.ts`) keeps the latest proof, and beside it a plain list of what
was proven.  Its calls are interleaved at every `await`.  While they do not overlap, and
`init`, which keeps the list, is not called after the first todo, the plain list is what the
proof says (`worker_synced`).  The page sees to both.
-/
namespace OpSuccinct.TodoList

open Transition

/-! ## What is used of o1js -/

/-- **An indexed Merkle map** of a height, which starts with a leaf at the key zero.  `get` and
`update` fail without the key, `insert` with it or when the tree is full. -/
structure IndexedMerkleMap (height : Nat) (F M : Type) where
  zero : F
  empty : M
  leaves : M → Nat
  get : M → F → Option F
  insert : M → F → F → Option M
  update : M → F → F → Option M
  leaves_empty : leaves empty = 1
  get_empty : ∀ k, k ≠ zero → get empty k = none
  insert_fresh : ∀ {m m' k v}, insert m k v = some m' →
    get m k = none ∧ leaves m < 2 ^ (height - 1) ∧ leaves m' = leaves m + 1
  get_insert : ∀ {m m' k v}, insert m k v = some m' →
    get m' k = some v ∧ ∀ k', k' ≠ k → get m' k' = get m k'
  leaves_update : ∀ {m m' k v}, update m k v = some m' → leaves m' = leaves m
  get_update : ∀ {m m' k v}, update m k v = some m' →
    get m' k = some v ∧ ∀ k', k' ≠ k → get m' k' = get m k'

/-- The part of o1js that the program and the worker use. -/
structure O1js (F C M : Type) where
  poseidon : List F → F
  textHash : C → F
  toField : Bool → F
  IndexedMerkleMap8 : IndexedMerkleMap 8 F M
  /-- `Field(n)` of a number, which is exact for safe integers. -/
  field : Nat → F
  /-- `CircuitString.fromString`, which fails on a text that is too long. -/
  fromString : String → Option C
  toString : C → String
  field_zero : field 0 = IndexedMerkleMap8.zero
  field_inj : ∀ {a b}, a < 2 ^ 53 → b < 2 ^ 53 → field a = field b → a = b

/-! ## The program -/

structure Todo (C : Type) where
  text : C
  status : Bool

/-- The same todo, completed. -/
def Todo.completed {C : Type} (todo : Todo C) : Todo C := { todo with status := true }

theorem Todo.completed_eq {C : Type} {todo : Todo C} (h : todo.status = true) :
    todo.completed = todo := by
  cases todo
  cases h
  rfl

section Program
variable {F C M : Type} (o : O1js F C M)

def Todo.hash (todo : Todo C) : F := o.poseidon [o.textHash todo.text, o.toField todo.status]

/-- The methods that take a proof, whose public output they start from. -/
inductive Method (F C : Type)
  | addTodo (index : F) (todo : Todo C)
  | completeTodo (index : F) (todo : Todo C)

def addTodo (p : M) (index : F) (todo : Todo C) : Option M :=
  o.IndexedMerkleMap8.insert p index (todo.hash o)

section Leaves
variable {o} {k leaf : F} {todo : Todo C} {tr : List (Method F C)}

/-- **What became of a leaf**: it is as it was, or it was the hash of a pending todo and is that
of the todo completed; or a todo that was completed and one that was pending have one hash. -/
def LeafKept (o : O1js F C M) (tr : List (Method F C)) (k leaf leaf' : F) : Prop :=
  leaf' = leaf ∨
    (∃ todo, .completeTodo k todo ∈ tr ∧ todo.status = false ∧ leaf = todo.hash o ∧
      leaf' = todo.completed.hash o) ∨
    ∃ done pending, .completeTodo k done ∈ tr ∧ .completeTodo k pending ∈ tr ∧
      pending.status = false ∧ done.completed.hash o = pending.hash o

theorem LeafKept.append {leaf' : F} {l : Method F C} (h : LeafKept o tr k leaf leaf') :
    LeafKept o (tr ++ [l]) k leaf leaf' := by
  rcases h with heq | ⟨todo, hmem, hrest⟩ | ⟨done, pending, hdone, hpending, hrest⟩
  · exact .inl heq
  · exact .inr (.inl ⟨todo, List.mem_append_left _ hmem, hrest⟩)
  · exact .inr (.inr ⟨done, pending, List.mem_append_left _ hdone,
      List.mem_append_left _ hpending, hrest⟩)

/-- Completing a todo at a leaf that was kept keeps it. -/
theorem LeafKept.complete (h : LeafKept o tr k leaf (todo.hash o)) :
    LeafKept o (tr ++ [.completeTodo k todo]) k leaf (todo.completed.hash o) := by
  have hmem : Method.completeTodo k todo ∈ tr ++ [Method.completeTodo k todo] := by simp
  by_cases hstatus : todo.status = true
  · rw [Todo.completed_eq hstatus]
    exact h.append
  · have hpending := Bool.eq_false_iff.mpr hstatus
    rcases h with heq | ⟨done, hdone, -, -, heq⟩ | hcollision
    · exact .inr (.inl ⟨todo, hmem, hpending, heq.symm, rfl⟩)
    · exact .inr (.inr ⟨done, todo, List.mem_append_left _ hdone, hmem, hpending, heq.symm⟩)
    · obtain ⟨done, pending, hdone, hother, hrest⟩ := hcollision
      exact .inr (.inr ⟨done, pending, List.mem_append_left _ hdone,
        List.mem_append_left _ hother, hrest⟩)

end Leaves

variable [DecidableEq F]

def completeTodo (p : M) (index : F) (todo : Todo C) : Option M :=
  if o.IndexedMerkleMap8.get p index = some (todo.hash o) then
    o.IndexedMerkleMap8.update p index (todo.completed.hash o)
  else none

/-- The public output of a method's proof, if there is one. -/
def ZkTodoList (p : M) : Method F C → Option M
  | .addTodo index todo => addTodo o p index todo
  | .completeTodo index todo => completeTodo o p index todo

/-- **The public output of a proof that verifies**: `init` made the first one, and every other
one was made from the output of a proof. -/
def Proven (m : M) : Prop :=
  ∃ tr, Run (stepOf (ZkTodoList o)) o.IndexedMerkleMap8.empty tr m

variable {o} {m m' : M} {k leaf : F} {todo : Todo C} {tr : List (Method F C)}

theorem completeTodo_some (h : completeTodo o m k todo = some m') :
    o.IndexedMerkleMap8.get m k = some (todo.hash o) ∧
      o.IndexedMerkleMap8.update m k (todo.completed.hash o) = some m' := by
  unfold completeTodo at h
  split at h
  · exact ⟨‹_›, h⟩
  · cases h

theorem Proven.init : Proven o o.IndexedMerkleMap8.empty := ⟨[], .nil⟩

theorem Proven.addTodo (h : Proven o m) (hadd : addTodo o m k todo = some m') : Proven o m' := by
  obtain ⟨tr, hrun⟩ := h
  have hstep : stepOf (ZkTodoList o) m (.addTodo k todo) m' := hadd
  exact ⟨_, hrun.snoc hstep⟩

theorem Proven.completeTodo (h : Proven o m) (hcomplete : completeTodo o m k todo = some m') :
    Proven o m' := by
  obtain ⟨tr, hrun⟩ := h
  have hstep : stepOf (ZkTodoList o) m (.completeTodo k todo) m' := hcomplete
  exact ⟨_, hrun.snoc hstep⟩

/-- **Todos are kept.**  In every proof that is built on a proof, by whatever methods: a leaf of
the first map is in the second, as it was or as the same todo completed, unless two todos that
were completed there, one of them for the second time, collide. -/
theorem todos_kept (hrun : Run (stepOf (ZkTodoList o)) m tr m')
    (hleaf : o.IndexedMerkleMap8.get m k = some leaf) :
    ∃ leaf', o.IndexedMerkleMap8.get m' k = some leaf' ∧ LeafKept o tr k leaf leaf' := by
  refine hrun.traceInvariant (I := fun tr m' => ∃ leaf',
    o.IndexedMerkleMap8.get m' k = some leaf' ∧ LeafKept o tr k leaf leaf') ?_
    ⟨leaf, hleaf, .inl rfl⟩
  rintro tr a l b ⟨leaf', hleaf', hkept⟩ hstep
  cases l with
  | addTodo index todo =>
    have hinsert : o.IndexedMerkleMap8.insert a index (todo.hash o) = some b := hstep
    by_cases hk : k = index
    · -- a key that is there cannot be added
      subst hk
      have hnone := (o.IndexedMerkleMap8.insert_fresh hinsert).1
      rw [hleaf'] at hnone
      cases hnone
    · exact ⟨leaf', ((o.IndexedMerkleMap8.get_insert hinsert).2 k hk).trans hleaf', hkept.append⟩
  | completeTodo index todo =>
    obtain ⟨hget, hupdate⟩ := completeTodo_some hstep
    by_cases hk : k = index
    · subst hk
      obtain rfl := Option.some.inj (hleaf'.symm.trans hget)
      exact ⟨_, (o.IndexedMerkleMap8.get_update hupdate).1, hkept.complete⟩
    · exact ⟨leaf', ((o.IndexedMerkleMap8.get_update hupdate).2 k hk).trans hleaf', hkept.append⟩

end Program

/-! ## The worker -/

structure TodoObjectRepr where
  text : String
  status : Bool

/-- **The state of the worker**; a proof is its public output. -/
structure State (M : Type) where
  merkleMap : Option M
  objectRepr : Nat → Option TodoObjectRepr
  proof : Option M
  index : Nat

/-- **A call that waits**: for the first proof, for the proof of one more todo or of a completed
one, with what is left to do after it; or for its turn to complete the next. -/
inductive Waiting (C M : Type)
  | init
  | addTodo (text : String) (todo : Todo C) (proof : M) (index : Nat) (todos : List String)
  | completeTodo (index : Nat) (text : String) (todo : Todo C) (proof : M) (indices : List Nat)
  | completeTodos (indices : List Nat)

inductive Call
  | init
  | addTodos (todos : List String)
  | completeTodo (index : Nat)
  | completeTodos (indices : List Nat)

structure Worker (C M : Type) where
  state : State M
  waiting : List (Waiting C M)

inductive WorkerOp
  | call (c : Call)
  | resolved (i : Nat)
  | rejected (i : Nat)

section Worker
variable {F C M : Type} (o : O1js F C M)

def State.initial : State M := ⟨none, fun _ => none, none, 0⟩

/-- The loop of `addTodos` up to its next `await`; nothing if it returns or throws before. -/
def addTodos (s : State M) : List String → Option (Waiting C M)
  | [] => none
  | text :: todos => do
    let proof ← s.proof
    let circuitText ← o.fromString text
    some (.addTodo text ⟨circuitText, false⟩ proof (s.index + 1) todos)

/-- `completeTodo` up to its `await`, in a loop that goes on with `indices`. -/
def beginCompleteTodo (s : State M) (index : Nat) (indices : List Nat) :
    Option (Waiting C M) := do
  let proof ← s.proof
  let merkleMap ← s.merkleMap
  let _todoHash ← o.IndexedMerkleMap8.get merkleMap (o.field index)
  let todoRepr ← s.objectRepr index
  if todoRepr.status then none
  else
    let circuitText ← o.fromString todoRepr.text
    let text ← o.fromString (o.toString circuitText)
    some (.completeTodo index todoRepr.text ⟨text, false⟩ proof indices)

def completeTodos (s : State M) : List Nat → Option (Waiting C M)
  | [] => none
  | index :: indices => beginCompleteTodo o s index indices

/-- A call up to its first `await`. -/
def begin (s : State M) : Call → Option (Waiting C M)
  | .init => some .init
  | .addTodos todos => addTodos o s todos
  | .completeTodo index => beginCompleteTodo o s index []
  | .completeTodos indices => completeTodos o s indices

variable {o} {s s' : State M} {call next : Waiting C M} {m : M}

/-! ## How its calls begin -/

/-- The proof that a call builds on. -/
def Waiting.proof : Waiting C M → Option M
  | .addTodo _ _ proof _ _ => some proof
  | .completeTodo _ _ _ proof _ => some proof
  | _ => none

theorem addTodos_proof {todos : List String} (h : addTodos o s todos = some call) :
    call.proof = s.proof := by
  cases todos with
  | nil => cases h
  | cons text todos =>
    simp only [addTodos, Option.bind_eq_bind, Option.bind_eq_some_iff, Option.some.injEq] at h
    obtain ⟨proof, hproof, circuitText, -, rfl⟩ := h
    exact hproof.symm

theorem beginCompleteTodo_some {index : Nat} {indices : List Nat}
    (h : beginCompleteTodo o s index indices = some call) :
    ∃ proof text todo, s.proof = some proof ∧ s.objectRepr index = some ⟨text, false⟩ ∧
      todo.status = false ∧ call = .completeTodo index text todo proof indices := by
  simp only [beginCompleteTodo, Option.bind_eq_bind, Option.bind_eq_some_iff] at h
  obtain ⟨proof, hproof, merkleMap, -, leaf, -, todoRepr, hrepr, h⟩ := h
  by_cases hstatus : todoRepr.status = true
  · simp [hstatus] at h
  · rw [if_neg hstatus] at h
    simp only [Option.bind_eq_some_iff, Option.some.injEq] at h
    obtain ⟨circuitText, -, text, -, rfl⟩ := h
    obtain ⟨reprText, status⟩ := todoRepr
    obtain rfl : status = false := Bool.eq_false_iff.mpr hstatus
    exact ⟨proof, reprText, ⟨text, false⟩, hproof, hrepr, rfl, rfl⟩

theorem begin_proof {c : Call} (h : begin o s c = some call) :
    call.proof = none ∨ call.proof = s.proof := by
  have hcomplete : ∀ index indices, beginCompleteTodo o s index indices = some call →
      call.proof = s.proof := by
    intro index indices h
    obtain ⟨proof, text, todo, hproof, -, -, rfl⟩ := beginCompleteTodo_some h
    exact hproof.symm
  cases c with
  | init =>
    cases h
    exact .inl rfl
  | addTodos todos => exact .inr (addTodos_proof h)
  | completeTodo index => exact .inr (hcomplete index [] h)
  | completeTodos indices =>
    cases indices with
    | nil => cases h
    | cons index indices => exact .inr (hcomplete index indices h)

/-! ## Its list -/

/-- The leaf of a listed todo: the hash of a todo with that status, whose pending todo has the
hash of the pending todo of that text. -/
def Shown (o : O1js F C M) (m : M) (k : Nat) (repr : TodoObjectRepr) : Prop :=
  ∃ text text', o.fromString repr.text = some text ∧
    Todo.hash o ⟨text', false⟩ = Todo.hash o ⟨text, false⟩ ∧
    o.IndexedMerkleMap8.get m (o.field k) = some (Todo.hash o ⟨text', repr.status⟩)

/-- **The list is what the map says**: its todos are numbered from one, each is in the map, and
nothing else is. -/
structure Lists (o : O1js F C M) (s : State M) (m : M) : Prop where
  bound : s.index < 2 ^ 7
  leaves : o.IndexedMerkleMap8.leaves m = s.index + 1
  listed : ∀ k, s.objectRepr k ≠ none ↔ 0 < k ∧ k ≤ s.index
  shown : ∀ k repr, s.objectRepr k = some repr → Shown o m k repr
  others : ∀ f, f ≠ o.IndexedMerkleMap8.zero → (∀ k, 0 < k → k ≤ s.index → f ≠ o.field k) →
    o.IndexedMerkleMap8.get m f = none

/-- The list is what the proof's map says, or nothing was proven yet. -/
def Synced (o : O1js F C M) (s : State M) : Prop :=
  match s.proof with
  | none => s.index = 0 ∧ ∀ k, s.objectRepr k = none
  | some m => Lists o s m

/-- **What a waiting call knows** when no other is made. -/
def Waiting.Synced (o : O1js F C M) (s : State M) : Waiting C M → Prop
  | .init => s.index = 0
  | .addTodo text todo proof index _ => s.proof = some proof ∧ index = s.index + 1 ∧
    ∃ circuitText, o.fromString text = some circuitText ∧ todo = ⟨circuitText, false⟩
  | .completeTodo index text todo proof _ => s.proof = some proof ∧
    s.objectRepr index = some ⟨text, false⟩ ∧ todo.status = false
  | .completeTodos _ => True

theorem addTodos_synced {todos : List String} (h : addTodos o s todos = some call) :
    call.Synced o s := by
  cases todos with
  | nil => cases h
  | cons text todos =>
    simp only [addTodos, Option.bind_eq_bind, Option.bind_eq_some_iff, Option.some.injEq] at h
    obtain ⟨proof, hproof, circuitText, htext, rfl⟩ := h
    exact ⟨hproof, rfl, circuitText, htext, rfl⟩

theorem completeTodos_synced {indices : List Nat} (h : completeTodos o s indices = some call) :
    call.Synced o s := by
  cases indices with
  | nil => cases h
  | cons index indices =>
    obtain ⟨proof, text, todo, hproof, hrepr, hstatus, rfl⟩ := beginCompleteTodo_some h
    exact ⟨hproof, hrepr, hstatus⟩

theorem begin_synced {c : Call} (h : begin o s c = some call) (hinit : c = .init → s.index = 0) :
    call.Synced o s := by
  cases c with
  | init =>
    cases h
    exact hinit rfl
  | addTodos todos => exact addTodos_synced h
  | completeTodo index =>
    have hcall : completeTodos o s [index] = some call := h
    exact completeTodos_synced hcall
  | completeTodos indices => exact completeTodos_synced h

/-- Two keys of the list are different fields. -/
theorem field_ne {a b n : Nat} (ha : a ≤ n) (hb : b ≤ n) (hn : n < 2 ^ 7) (hne : a ≠ b) :
    o.field a ≠ o.field b := by
  intro heq
  exact hne (o.field_inj (by omega) (by omega) heq)

/-- The first proof lists no todo. -/
theorem lists_init (hs : Synced o s) (hindex : s.index = 0) :
    Lists o { s with
      proof := some o.IndexedMerkleMap8.empty
      merkleMap := some o.IndexedMerkleMap8.empty } o.IndexedMerkleMap8.empty := by
  have hnone : ∀ k, s.objectRepr k = none := by
    unfold Synced at hs
    split at hs
    · exact hs.2
    · intro k
      by_contra hrepr
      have hk := (hs.listed k).mp hrepr
      omega
  refine ⟨?_, ?_, fun k => ?_, fun k repr hrepr => ?_, fun f hf _ => ?_⟩
  · rw [hindex]
    decide
  · rw [hindex]
    exact o.IndexedMerkleMap8.leaves_empty
  · constructor
    · intro hrepr
      exact absurd (hnone k) hrepr
    · rintro ⟨hpos, hle⟩
      have hle : k ≤ s.index := hle
      omega
  · rw [hnone k] at hrepr
    cases hrepr
  · exact o.IndexedMerkleMap8.get_empty f hf

/-- An added todo is listed. -/
theorem Lists.addTodo {text : String} {circuitText : C} {m' : M} (h : Lists o s m)
    (htext : o.fromString text = some circuitText)
    (hadd : TodoList.addTodo o m (o.field (s.index + 1)) ⟨circuitText, false⟩ = some m') :
    Lists o
      { merkleMap := some m'
        index := s.index + 1
        objectRepr := Function.update s.objectRepr (s.index + 1) (some ⟨text, false⟩)
        proof := some m' } m' := by
  obtain ⟨hfresh, hfull, hleaves⟩ := o.IndexedMerkleMap8.insert_fresh hadd
  obtain ⟨hget, hothers⟩ := o.IndexedMerkleMap8.get_insert hadd
  have hbound : s.index + 1 < 2 ^ 7 := by
    rw [h.leaves] at hfull
    exact hfull
  refine ⟨hbound, ?_, fun k => ?_, fun k repr hrepr => ?_, fun f hf hne => ?_⟩
  · rw [hleaves, h.leaves]
  · by_cases hk : k = s.index + 1
    · simp [hk]
    · have hold := h.listed k
      simp only [Function.update_of_ne hk]
      rw [hold]
      constructor
      · omega
      · omega
  · by_cases hk : k = s.index + 1
    · subst hk
      obtain rfl : ⟨text, false⟩ = repr := by simpa using hrepr
      exact ⟨circuitText, circuitText, htext, rfl, hget⟩
    · have hrepr' : s.objectRepr k = some repr := by simpa [hk] using hrepr
      have hle := ((h.listed k).mp (by simp [hrepr'])).2
      obtain ⟨t, t', ht, hhash, hleaf⟩ := h.shown k repr hrepr'
      refine ⟨t, t', ht, hhash, ?_⟩
      rw [hothers _ (field_ne (Nat.le_succ_of_le hle) (Nat.le_refl _) hbound hk)]
      exact hleaf
  · rw [hothers f (hne (s.index + 1) (Nat.succ_pos _) (Nat.le_refl _))]
    exact h.others f hf fun k hpos hle => hne k hpos (Nat.le_succ_of_le hle)

/-! ## How its calls go on -/

variable [DecidableEq F]

/-- What a call does once what it waits for is there, up to its next `await`. -/
def resume (o : O1js F C M) (s : State M) : Waiting C M → Option (State M × Option (Waiting C M))
  | .init =>
    some ({ s with
      proof := some o.IndexedMerkleMap8.empty
      merkleMap := some o.IndexedMerkleMap8.empty }, none)
  | .addTodo text todo proof index todos => do
    let publicOutput ← addTodo o proof (o.field index) todo
    let s' : State M :=
      { merkleMap := some publicOutput
        index := s.index + 1
        objectRepr := Function.update s.objectRepr (s.index + 1) (some ⟨text, false⟩)
        proof := some publicOutput }
    some (s', addTodos o s' todos)
  | .completeTodo index text todo proof indices => do
    let publicOutput ← completeTodo o proof (o.field index) todo
    some ({ s with
      merkleMap := some publicOutput
      objectRepr := Function.update s.objectRepr index (some ⟨text, true⟩)
      proof := some publicOutput }, some (.completeTodos indices))
  | .completeTodos indices => some (s, completeTodos o s indices)

/-- **One step of the worker.**  A call begins; or what one of the waiting calls waits for is
there, in any order; or it fails, which ends the call. -/
inductive WorkerStep (o : O1js F C M) : Worker C M → WorkerOp → Worker C M → Prop
  | call (w : Worker C M) (c : Call) :
      WorkerStep o w (.call c) { w with waiting := w.waiting ++ (begin o w.state c).toList }
  | resolved (w : Worker C M) (i : Nat) (call : Waiting C M) (s : State M)
      (next : Option (Waiting C M)) : w.waiting[i]? = some call →
      resume o w.state call = some (s, next) →
      WorkerStep o w (.resolved i) ⟨s, w.waiting.eraseIdx i ++ next.toList⟩
  | rejected (w : Worker C M) (i : Nat) :
      WorkerStep o w (.rejected i) { w with waiting := w.waiting.eraseIdx i }

variable {w w' : Worker C M}

/-- **The worker's proof is genuine**, its map is the proof's, and its calls build on genuine
proofs. -/
structure Genuine (o : O1js F C M) (w : Worker C M) : Prop where
  merkleMap : w.state.merkleMap = w.state.proof
  proof : ∀ m, w.state.proof = some m → Proven o m
  waiting : ∀ call ∈ w.waiting, ∀ m, call.proof = some m → Proven o m

/-- **What a call leaves** once it goes on: a proof and its map, made by the program from the
proof that it built on, or the state as it was. -/
theorem resume_proof {after : Option (Waiting C M)} (h : resume o s call = some (s', after))
    (hcall : ∀ m, call.proof = some m → Proven o m) :
    (s' = s ∨ ∃ m, Proven o m ∧ s'.proof = some m ∧ s'.merkleMap = some m) ∧
      ∀ next, after = some next → next.proof = none ∨ next.proof = s'.proof := by
  cases call with
  | init =>
    cases h
    exact ⟨.inr ⟨_, .init, rfl, rfl⟩, nofun⟩
  | addTodo text todo proof index todos =>
    simp only [resume, Option.bind_eq_bind, Option.bind_eq_some_iff, Option.some.injEq,
      Prod.mk.injEq] at h
    obtain ⟨publicOutput, hadd, rfl, rfl⟩ := h
    exact ⟨.inr ⟨publicOutput, (hcall proof rfl).addTodo hadd, rfl, rfl⟩,
      fun next hnext => .inr (addTodos_proof hnext)⟩
  | completeTodo index text todo proof indices =>
    simp only [resume, Option.bind_eq_bind, Option.bind_eq_some_iff, Option.some.injEq,
      Prod.mk.injEq] at h
    obtain ⟨publicOutput, hcomplete, rfl, rfl⟩ := h
    refine ⟨.inr ⟨publicOutput, (hcall proof rfl).completeTodo hcomplete, rfl, rfl⟩, ?_⟩
    rintro _ ⟨⟩
    exact .inl rfl
  | completeTodos indices =>
    obtain ⟨rfl, rfl⟩ := Prod.mk.inj (Option.some.inj h)
    exact ⟨.inl rfl, fun next hnext => begin_proof (c := .completeTodos indices) hnext⟩

theorem Genuine.step {op : WorkerOp} (h : Genuine o w) (hstep : WorkerStep o w op w') :
    Genuine o w' := by
  cases hstep with
  | call c =>
    refine ⟨h.merkleMap, h.proof, fun call hmem m hm => ?_⟩
    rcases List.mem_append.mp hmem with hmem | hmem
    · exact h.waiting call hmem m hm
    · rcases begin_proof (Option.mem_toList.mp hmem) with hnone | hproof
      · rw [hnone] at hm
        cases hm
      · exact h.proof m (hproof.symm.trans hm)
  | resolved i call s next hcall hresume =>
    have hmem := List.mem_of_getElem? hcall
    obtain ⟨hstate, hnext⟩ := resume_proof hresume (h.waiting call hmem)
    have hgenuine : s.merkleMap = s.proof ∧ ∀ m, s.proof = some m → Proven o m := by
      rcases hstate with rfl | ⟨m, hm, hproof, hmap⟩
      · exact ⟨h.merkleMap, h.proof⟩
      · refine ⟨hmap.trans hproof.symm, fun m' hm' => ?_⟩
        obtain rfl := Option.some.inj (hproof.symm.trans hm')
        exact hm
    refine ⟨hgenuine.1, hgenuine.2, fun call' hmem' m hm => ?_⟩
    rcases List.mem_append.mp hmem' with hmem' | hmem'
    · exact h.waiting call' (List.mem_of_mem_eraseIdx hmem') m hm
    · rcases hnext call' (Option.mem_toList.mp hmem') with hnone | hproof
      · rw [hnone] at hm
        cases hm
      · exact hgenuine.2 m (hproof.symm.trans hm)
  | rejected i =>
    exact ⟨h.merkleMap, h.proof, fun call hmem => h.waiting call (List.mem_of_mem_eraseIdx hmem)⟩

theorem Genuine.initial : Genuine o ⟨State.initial, []⟩ := ⟨rfl, nofun, nofun⟩

/-- No call is made while another waits, and `init` only before the first todo. -/
def Serial (w : Worker C M) (op : WorkerOp) : Prop :=
  ∀ c, op = .call c → w.waiting = [] ∧ (c = .init → w.state.index = 0)

/-- A completed todo is listed as such. -/
theorem Lists.completeTodo {index : Nat} {text : String} {todo : Todo C} {m' : M}
    (h : Lists o s m) (hrepr : s.objectRepr index = some ⟨text, false⟩)
    (htodo : todo.status = false)
    (hcomplete : TodoList.completeTodo o m (o.field index) todo = some m') :
    Lists o { s with
      merkleMap := some m'
      objectRepr := Function.update s.objectRepr index (some ⟨text, true⟩)
      proof := some m' } m' := by
  obtain ⟨hleaf, hupdate⟩ := completeTodo_some hcomplete
  obtain ⟨hget, hothers⟩ := o.IndexedMerkleMap8.get_update hupdate
  obtain ⟨hpos, hindex⟩ := (h.listed index).mp (by simp [hrepr])
  refine ⟨h.bound, ?_, fun k => ?_, fun k repr hk => ?_, fun f hf hne => ?_⟩
  · rw [o.IndexedMerkleMap8.leaves_update hupdate, h.leaves]
  · by_cases hk : k = index
    · subst hk
      simp [hpos, hindex]
    · simp only [Function.update_of_ne hk]
      exact h.listed k
  · by_cases hki : k = index
    · subst hki
      obtain rfl : ⟨text, true⟩ = repr := by simpa using hk
      -- the leaf is the hash of the pending todo that is completed
      obtain ⟨t, t', ht, hhash, hold⟩ := h.shown k _ hrepr
      obtain ⟨todoText, status⟩ := todo
      obtain rfl : status = false := htodo
      exact ⟨t, todoText, ht, (Option.some.inj (hleaf.symm.trans hold)).trans hhash, hget⟩
    · have hrepr' : s.objectRepr k = some repr := by simpa [hki] using hk
      have hle := ((h.listed k).mp (by simp [hrepr'])).2
      obtain ⟨t, t', ht, hhash, hold⟩ := h.shown k repr hrepr'
      refine ⟨t, t', ht, hhash, ?_⟩
      rw [hothers _ (field_ne hle hindex h.bound hki)]
      exact hold
  · rw [hothers f (hne index hpos hindex)]
    exact h.others f hf hne

/-! ## Serial runs -/

/-- **The worker is in step**: its list is what its proof says, at most one call waits, and it
knows what it will need. -/
structure InStep (o : O1js F C M) (w : Worker C M) : Prop where
  synced : Synced o w.state
  waiting : w.waiting = [] ∨ ∃ call, w.waiting = [call] ∧ call.Synced o w.state

omit [DecidableEq F] in
theorem InStep.of_toList {next : Option (Waiting C M)} (hs : Synced o s)
    (hnext : ∀ call, next = some call → call.Synced o s) : InStep o ⟨s, next.toList⟩ := by
  cases next with
  | none => exact ⟨hs, .inl rfl⟩
  | some call => exact ⟨hs, .inr ⟨call, rfl, hnext call rfl⟩⟩

omit [DecidableEq F] in
theorem synced_some (h : s.proof = some m) : Synced o s ↔ Lists o s m := by
  rw [Synced, h]

/-- **A call that goes on** leaves the list what its proof says. -/
theorem resume_synced {after : Option (Waiting C M)} (hs : Synced o s) (hcall : call.Synced o s)
    (h : resume o s call = some (s', after)) : InStep o ⟨s', after.toList⟩ := by
  cases call with
  | init =>
    cases h
    exact ⟨(synced_some rfl).mpr (lists_init hs hcall), .inl rfl⟩
  | addTodo text todo proof index todos =>
    obtain ⟨hproof, rfl, circuitText, htext, rfl⟩ := hcall
    simp only [resume, Option.bind_eq_bind, Option.bind_eq_some_iff, Option.some.injEq,
      Prod.mk.injEq] at h
    obtain ⟨publicOutput, hadd, rfl, rfl⟩ := h
    have hlists := ((synced_some hproof).mp hs).addTodo htext hadd
    exact .of_toList ((synced_some rfl).mpr hlists) fun call hnext => addTodos_synced hnext
  | completeTodo index text todo proof indices =>
    obtain ⟨hproof, hrepr, hstatus⟩ := hcall
    simp only [resume, Option.bind_eq_bind, Option.bind_eq_some_iff, Option.some.injEq,
      Prod.mk.injEq] at h
    obtain ⟨publicOutput, hcomplete, rfl, rfl⟩ := h
    have hlists := ((synced_some hproof).mp hs).completeTodo hrepr hstatus hcomplete
    refine .of_toList ((synced_some rfl).mpr hlists) ?_
    rintro _ ⟨⟩
    trivial
  | completeTodos indices =>
    obtain ⟨rfl, rfl⟩ := Prod.mk.inj (Option.some.inj h)
    exact .of_toList hs fun call hnext => completeTodos_synced hnext

/-- **One step** of the worker, between calls that do not overlap. -/
theorem InStep.step {op : WorkerOp} (h : InStep o w) (hstep : WorkerStep o w op w')
    (hserial : Serial w op) : InStep o w' := by
  cases hstep with
  | call c =>
    obtain ⟨hidle, hinit⟩ := hserial c rfl
    rw [hidle, List.nil_append]
    exact .of_toList h.synced fun call hcall => begin_synced hcall hinit
  | resolved i call s next hcall hresume =>
    rcases h.waiting with hnone | ⟨call', hone, hknows⟩
    · simp [hnone] at hcall
    · rw [hone] at hcall ⊢
      obtain ⟨rfl, rfl⟩ : i = 0 ∧ call' = call := by
        cases i with
        | zero => exact ⟨rfl, Option.some.inj hcall⟩
        | succ i => cases hcall
      exact resume_synced h.synced hknows hresume
  | rejected i =>
    refine ⟨h.synced, ?_⟩
    rcases h.waiting with hnone | ⟨call', hone, hknows⟩
    · exact .inl (by simp [hnone])
    · cases i with
      | zero => exact .inl (by simp [hone])
      | succ i => exact .inr ⟨call', by simp [hone], hknows⟩

omit [DecidableEq F] in
theorem InStep.initial : InStep o ⟨State.initial, []⟩ := ⟨⟨rfl, fun _ => rfl⟩, .inl rfl⟩

/-- **The list is what is proven.**  In every run of the worker, with its calls interleaved at
every `await` and failing at any, its proof is genuine and its map is the proof's.  While no
call is made before the last one ended, and `init` is not called after the first todo, its todos
are numbered from one on, at most 127, the leaf of each is the hash of its text and status (or of
another todo whose pending hash is the same), and nothing else is in the map. -/
theorem worker_synced {tr : List WorkerOp} (hrun : Run (WorkerStep o) ⟨State.initial, []⟩ tr w) :
    w.state.merkleMap = w.state.proof ∧ (∀ m, w.state.proof = some m → Proven o m) ∧
    (Run (fun w op w' => WorkerStep o w op w' ∧ Serial w op) ⟨State.initial, []⟩ tr w →
      ∀ m, w.state.proof = some m → Lists o w.state m) := by
  have hgenuine := hrun.invariant (I := Genuine o) (fun _ _ _ h hstep => h.step hstep) .initial
  refine ⟨hgenuine.merkleMap, hgenuine.proof, fun hserial m hm => ?_⟩
  have hinStep := hserial.invariant (I := InStep o) (fun _ _ _ h hstep => h.step hstep.1 hstep.2)
    .initial
  exact (synced_some hm).mp hinStep.synced

end Worker

/-! ### A todo that is completed

The worker makes its first proof, proves one todo and completes it. -/

def exampleMap : IndexedMerkleMap 8 Nat (Nat × (Nat → Option Nat)) where
  zero := 0
  empty := (1, Function.update (fun _ => none) 0 (some 0))
  leaves m := m.1
  get m k := m.2 k
  insert m k v :=
    if m.2 k = none ∧ m.1 < 128 then some (m.1 + 1, Function.update m.2 k (some v)) else none
  update m k v := if m.2 k = none then none else some (m.1, Function.update m.2 k (some v))
  leaves_empty := rfl
  get_empty k hk := Function.update_of_ne hk (some 0) fun _ => none
  insert_fresh h := by
    split at h
    · cases h
      exact ⟨‹_ ∧ _›.1, ‹_ ∧ _›.2, rfl⟩
    · cases h
  get_insert h := by
    split at h
    · cases h
      exact ⟨Function.update_self _ _ _, fun k' hk' => Function.update_of_ne hk' _ _⟩
    · cases h
  leaves_update h := by
    split at h
    · cases h
    · cases h
      rfl
  get_update h := by
    split at h
    · cases h
    · cases h
      exact ⟨Function.update_self _ _ _, fun k' hk' => Function.update_of_ne hk' _ _⟩

def exampleO1js : O1js Nat String (Nat × (Nat → Option Nat)) where
  poseidon xs := xs.foldl (fun acc x => 2 * acc + x) 1
  textHash text := text.length
  toField status := status.toNat
  IndexedMerkleMap8 := exampleMap
  field n := n
  fromString text := some text
  toString text := text
  field_zero := rfl
  field_inj _ _ heq := heq

def exampleTodo : Todo String := ⟨"bread", false⟩

/-- The map with the example's todo. -/
def exampleAdded : Nat × (Nat → Option Nat) :=
  (2, Function.update exampleMap.empty.2 1 (some (exampleTodo.hash exampleO1js)))

/-- The map with the todo completed. -/
def exampleDone : Nat × (Nat → Option Nat) :=
  (2, Function.update exampleAdded.2 1 (some (exampleTodo.completed.hash exampleO1js)))

theorem exampleAdded_leaf :
    exampleO1js.IndexedMerkleMap8.get exampleAdded 1 = some (exampleTodo.hash exampleO1js) := rfl

theorem exampleComplete :
    completeTodo exampleO1js exampleAdded 1 exampleTodo = some exampleDone := by
  rw [completeTodo, if_pos exampleAdded_leaf]
  rfl

/-- The completed todo is in the map. -/
theorem todos_kept_example : ∃ leaf, exampleO1js.IndexedMerkleMap8.get exampleDone 1 = some leaf ∧
    LeafKept exampleO1js [.completeTodo 1 exampleTodo] 1 (exampleTodo.hash exampleO1js) leaf :=
  todos_kept (.single exampleComplete) exampleAdded_leaf

def exampleListed (m : Nat × (Nat → Option Nat)) (status : Bool) :
    State (Nat × (Nat → Option Nat)) where
  merkleMap := some m
  objectRepr := Function.update (fun _ => none) 1 (some ⟨"bread", status⟩)
  proof := some m
  index := 1

def exampleWorkerOps : List WorkerOp :=
  [.call .init, .resolved 0, .call (.addTodos ["bread"]), .resolved 0,
    .call (.completeTodo 1), .resolved 0, .resolved 0]

/-- A call that goes on, with no other call. -/
theorem example_resolved (call : Waiting String (Nat × (Nat → Option Nat))) {s s'}
    {next : Option _} (h : resume exampleO1js s call = some (s', next)) :
    WorkerStep exampleO1js ⟨s, [call]⟩ (.resolved 0) ⟨s', next.toList⟩ ∧
      Serial (⟨s, [call]⟩ : Worker String _) (.resolved 0) :=
  ⟨.resolved _ 0 call s' next rfl h, nofun⟩

/-- A call that begins, when there is no other. -/
theorem example_call (c : Call) {s : State (Nat × (Nat → Option Nat))} {call}
    (h : begin exampleO1js s c = some call) (hinit : c = .init → s.index = 0) :
    WorkerStep exampleO1js ⟨s, []⟩ (.call c) ⟨s, [call]⟩ ∧
      Serial (⟨s, []⟩ : Worker String _) (.call c) := by
  have hstep := WorkerStep.call (o := exampleO1js) ⟨s, []⟩ c
  rw [h] at hstep
  refine ⟨hstep, ?_⟩
  rintro _ ⟨⟩
  exact ⟨rfl, hinit⟩

/-- The state once the first proof is there. -/
def exampleStarted : State (Nat × (Nat → Option Nat)) where
  merkleMap := some exampleMap.empty
  objectRepr := fun _ => none
  proof := some exampleMap.empty
  index := 0

theorem exampleAdd_resume :
    resume exampleO1js exampleStarted (.addTodo "bread" exampleTodo exampleMap.empty 1 []) =
      some (exampleListed exampleAdded false, none) := rfl

theorem exampleComplete_resume :
    resume exampleO1js (exampleListed exampleAdded false)
        (.completeTodo 1 "bread" exampleTodo exampleAdded []) =
      some (exampleListed exampleDone true, some (.completeTodos [])) := by
  have hcomplete : completeTodo exampleO1js exampleAdded (exampleO1js.field 1) exampleTodo =
      some exampleDone := exampleComplete
  simp only [resume, hcomplete]
  simp [exampleListed]

theorem exampleWorker_run : Run (fun w op w' => WorkerStep exampleO1js w op w' ∧ Serial w op)
    ⟨State.initial, []⟩ exampleWorkerOps ⟨exampleListed exampleDone true, []⟩ := by
  have hstarted : resume exampleO1js State.initial .init = some (exampleStarted, none) := rfl
  refine .cons (example_call .init rfl fun _ => rfl) <|
    .cons (example_resolved _ hstarted) <|
    .cons (example_call _ rfl nofun) <| .cons (example_resolved _ exampleAdd_resume) <|
    .cons (example_call _ rfl nofun) <| .cons (example_resolved _ exampleComplete_resume) ?_
  exact .single (example_resolved (.completeTodos []) rfl)

/-- The list of the worker that completed the todo. -/
theorem worker_synced_example : Proven exampleO1js exampleDone ∧
    Lists exampleO1js (exampleListed exampleDone true) exampleDone := by
  obtain ⟨-, hproven, hlists⟩ := worker_synced (exampleWorker_run.mono fun _ _ _ h => h.1)
  exact ⟨hproven _ rfl, hlists exampleWorker_run _ rfl⟩

end OpSuccinct.TodoList

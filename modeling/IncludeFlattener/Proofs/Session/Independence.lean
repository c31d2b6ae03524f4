/-
IncludeFlattener.Proofs.Session.Independence — calls on one session know
nothing of each other.

What a call depends on can be read off the operations before it: the last
keyword, and for each path the last file and the last fixed answer
(`netAnswer`). A session holds just these (`keyword_final`, `read_final`), and
a walk sees no more of a source than its answers (`walk_congr`). So whatever
the calls before have read, marked or failed at, the reply is that of a new
session.

Each part of a session is either left alone by an operation or set by it to
something that the operation names. `project_final` says once what that comes
to over a row of operations: the last one that set the part decides.
-/
import IncludeFlattener.Session
import IncludeFlattener.Proofs.Flattening.Agreement
import IncludeFlattener.Proofs.Flattening.LineMap
namespace IncludeFlattener

/-- A walk depends on the answers of its source only. -/
theorem walk_congr {source other : Source} (h : source.read = other.read)
    (keyword : Keyword) (path : Path) :
    walk source keyword path = walk other keyword path := by
  have hr : source.reader = other.reader := congrArg Reader.steady h
  have hw := walk?_eq_some_walk source keyword path
  rw [hr, walk?_eq_some_walk, Option.some.injEq] at hw
  exact hw.symm

namespace Session

/-! ## 1. What the operations set -/

namespace Operation

/-- The keyword that the operation sets. -/
def keyword? : Operation → Option Keyword
  | .rekey word => Keyword.ofText? word
  | _ => none

/-- The contents that the operation stores under a path. -/
def stored? (path : Path) : Operation → Option Text
  | .insert other contents => if path = other then some contents else none
  | _ => none

/-- The answer that the operation fixes for a path, or that there is none
any more. -/
def fixed? (path : Path) : Operation → Option (Option Answer)
  | .fix other answer => if path = other then some (some answer) else none
  | .release other => if path = other then some none else none
  | _ => none

/-- The operation flattens a path. -/
def IsCall (op : Operation) : Prop :=
  ∃ path, op = .text path ∨ op = .chunks path ∨ op = .account path

end Operation

/-- What the last of the items that has a value has. -/
def last? {α β : Type} (value? : α → Option β) (items : List α) : Option β :=
  items.reverse.findSome? value?

/-- The keyword in use after some operations. -/
def netKeyword (keyword : Keyword) (ops : List Operation) : Keyword :=
  (last? Operation.keyword? ops).getD keyword

/-- The answer to a path after some operations: a fixed answer hides the
stored file. -/
def netAnswer (ops : List Operation) (path : Path) : Answer :=
  match (last? (·.fixed? path) ops).join with
  | some answer => answer
  | none =>
    match last? (·.stored? path) ops with
    | some contents => .ok contents.splitLines
    | none => .error .missing

/-- The chunks that a reply gives. -/
def Reply.chunks? : Reply → Option (List Chunk)
  | .chunks cs => some cs
  | .account f => some f.chunks
  | _ => none

/-- The reply says that the operation failed. -/
def Reply.IsFailure (reply : Reply) : Prop :=
  reply = .emptyKeyword ∨ ∃ failure, reply = .failed failure

/-! ## 2. One operation -/

section Step

variable (s : Session) (op : Operation) (path : Path)

theorem keyword_perform :
    (s.perform op).2.keyword = op.keyword?.getD s.keyword := by
  cases op with
  | rekey word =>
    rw [perform, Operation.keyword?]
    cases Keyword.ofText? word <;> rfl
  | _ => rfl

theorem get?_perform :
    (s.perform op).2.files.store.get? path
      = ((op.stored? path).map some).getD (s.files.store.get? path) := by
  cases op with
  | insert other contents =>
    show (s.files.store.insert other contents).get? path = _
    rw [Store.get?_insert, Operation.stored?]
    split <;> rfl
  | rekey word =>
    rw [perform]
    cases Keyword.ofText? word <;> rfl
  | _ => rfl

theorem lookup_perform :
    (s.perform op).2.files.fixed.lookup path
      = (op.fixed? path).getD (s.files.fixed.lookup path) := by
  cases op with
  | fix other answer =>
    show ((other, answer) :: s.files.fixed).lookup path = _
    rw [List.lookup_cons, Operation.fixed?]
    by_cases h : path = other
    · simp [h]
    · simp [h, beq_false_of_ne h]
  | release other =>
    show (s.files.fixed.filter (·.1 ≠ other)).lookup path = _
    rw [Script.lookup_filter_ne, Operation.fixed?]
    split <;> rfl
  | rekey word =>
    rw [perform]
    cases Keyword.ofText? word <;> rfl
  | _ => rfl

theorem chunks_perform :
    (s.perform op).2.chunks = (s.perform op).1.chunks?.getD s.chunks := by
  cases op with
  | rekey word =>
    rw [perform]
    cases Keyword.ofText? word <;> rfl
  | text path | chunks path | account path =>
    simp only [perform, after, replyTo, Walk.result]
    cases (s.walkFrom path).failure <;> rfl
  | _ => rfl

end Step

/-- The keyword, the files and the last chunks are the same afterwards. -/
structure Keeps (before after : Session) : Prop where
  keyword : after.keyword = before.keyword
  files : after.files = before.files
  chunks : after.chunks = before.chunks

/-- An operation that fails sets nothing. -/
theorem keeps_perform {s : Session} {op : Operation}
    (h : (s.perform op).1.IsFailure) : s.Keeps (s.perform op).2 := by
  have hchunks : (s.perform op).1.chunks? = none := by
    rcases h with h | ⟨failure, h⟩
    · rw [h]
      rfl
    · rw [h]
      rfl
  -- What sets the keyword or the files does not fail, except for `rekey`.
  have hkept : (s.perform op).2.keyword = s.keyword ∧
      (s.perform op).2.files = s.files := by
    cases op with
    | insert | fix | release => rcases h with h | ⟨failure, h⟩ <;> cases h
    | rekey word =>
      rw [perform] at h ⊢
      cases hk : Keyword.ofText? word with
      | none => exact ⟨rfl, rfl⟩
      | some keyword =>
        rw [hk] at h
        rcases h with h | ⟨failure, h⟩ <;> cases h
    | _ => exact ⟨rfl, rfl⟩
  exact ⟨hkept.1, hkept.2, by rw [chunks_perform, hchunks, Option.getD_none]⟩

/-! ## 3. A row of operations -/

theorem last?_cons {α β : Type} (value? : α → Option β) (x : α)
    (items : List α) :
    last? value? (x :: items) = (last? value? items).or (value? x) := by
  rw [last?, List.reverse_cons, List.findSome?_append]
  simp [last?]

theorem last?_map {α β γ : Type} (value? : α → Option β) (f : β → γ)
    (items : List α) :
    last? (fun x => (value? x).map f) items = (last? value? items).map f := by
  induction items with
  | nil => rfl
  | cons x items ih => rw [last?_cons, last?_cons, ih, Option.map_or]

section Row

variable (s : Session) (ops : List Operation)

/-- What each operation leaves alone or sets is what the last one that set it
has set it to. -/
theorem project_final {β : Type} (part : Session → β)
    {value? : Operation → Option β}
    (h : ∀ s op, part (s.perform op).2 = (value? op).getD (part s)) :
    part (s.final ops) = (last? value? ops).getD (part s) := by
  induction ops generalizing s with
  | nil => rfl
  | cons op ops ih =>
    rw [final, ih, h, last?_cons, Option.getD_or]

theorem keyword_final :
    (s.final ops).keyword = netKeyword s.keyword ops :=
  project_final s ops Session.keyword keyword_perform

theorem chunks_final :
    (s.final ops).chunks
      = (last? Reply.chunks? (s.run ops)).getD s.chunks := by
  induction ops generalizing s with
  | nil => rfl
  | cons op ops ih =>
    rw [final, ih, chunks_perform, run, last?_cons, Option.getD_or]

theorem final_append (more : List Operation) :
    s.final (ops ++ more) = (s.final ops).final more := by
  induction ops generalizing s with
  | nil => rfl
  | cons op ops ih => exact ih (s.perform op).2

theorem getElem?_run (i : Nat) :
    (s.run ops)[i]?
      = ops[i]?.map fun op => ((s.final (ops.take i)).perform op).1 := by
  induction ops generalizing s i with
  | nil => simp [run]
  | cons op ops ih =>
    cases i with
    | zero => rfl
    | succ i => exact ih (s.perform op).2 i

end Row

section Files

variable (keyword : Keyword) (ops : List Operation) (path : Path)

theorem get?_final :
    ((start keyword).final ops).files.store.get? path
      = last? (·.stored? path) ops := by
  rw [project_final (start keyword) ops (fun s => s.files.store.get? path)
    (fun s op => get?_perform s op path), last?_map]
  cases last? (·.stored? path) ops <;> rfl

theorem lookup_final :
    ((start keyword).final ops).files.fixed.lookup path
      = (last? (·.fixed? path) ops).join := by
  rw [project_final (start keyword) ops (fun s => s.files.fixed.lookup path)
    (fun s op => lookup_perform s op path)]
  cases last? (·.fixed? path) ops <;> rfl

/-- A session that starts without files answers a path as the operations
say. -/
theorem read_final :
    ((start keyword).final ops).files.read path = netAnswer ops path := by
  rw [Script.read, lookup_final, netAnswer]
  cases (last? (·.fixed? path) ops).join with
  | some answer => rfl
  | none =>
    simp only [Store.read, get?_final]
    cases last? (·.stored? path) ops <;> rfl

end Files

/-! ## 4. Calls -/

/-- The reply to a call depends on the keyword and the answers only. -/
theorem reply_congr {s t : Session} (hk : s.keyword = t.keyword)
    (hr : s.files.read = t.files.read) {op : Operation} (h : op.IsCall) :
    (s.perform op).1 = (t.perform op).1 := by
  have hw : ∀ path, s.walkFrom path = t.walkFrom path := by
    intro path
    rw [walkFrom, walkFrom, hk]
    exact walk_congr hr t.keyword path
  obtain ⟨path, rfl | rfl | rfl⟩ := h
  · rw [perform, perform, hw]
  · rw [perform, perform, hw]
  · rw [perform, perform, hw]

/-- **Calls are independent.** In a row of operations on a session, a call is
answered as a new session answers it that has the last keyword and files which
give the net answers, and there are such files. An operation that fails leaves
the keyword, the files and the chunks as they were, and these are the chunks
of the last reply that gave any. -/
theorem calls_independent (keyword : Keyword) {ops : List Operation} {i : Nat}
    {op : Operation} (hi : ops[i]? = some op) :
    ∃ reply, ((start keyword).run ops)[i]? = some reply ∧
      (op.IsCall →
        (∃ files : Script,
          ∀ path, files.read path = netAnswer (ops.take i) path) ∧
        ∀ files : Script,
          (∀ path, files.read path = netAnswer (ops.take i) path) →
          reply = ((⟨netKeyword keyword (ops.take i), files, [], []⟩ :
            Session).perform op).1) ∧
      (reply.IsFailure →
        ((start keyword).final (ops.take i)).Keeps
          ((start keyword).final (ops.take (i + 1)))) ∧
      ((start keyword).final (ops.take i)).chunks
        = (last? Reply.chunks? ((start keyword).run (ops.take i))).getD []
    := by
  refine ⟨((start keyword).final (ops.take i)).perform op |>.1,
    by rw [getElem?_run, hi]; rfl, fun hcall => ⟨?_, ?_⟩, fun hfail => ?_,
    chunks_final _ _⟩
  · exact ⟨_, read_final keyword (ops.take i)⟩
  · intro files hfiles
    refine reply_congr (keyword_final _ _) (funext fun path => ?_) hcall
    rw [read_final, hfiles]
  · have hnext : ops.take (i + 1) = ops.take i ++ [op] := by
      rw [List.take_add_one, hi]
      rfl
    rw [hnext, final_append]
    exact keeps_perform hfail

/-! ## 5. A call that fails and succeeds later -/

/-- The file `a` includes `b`, which cannot be opened for a while. -/
def closedForAWhile : List Operation :=
  [.insert ['a'] "#\"b\"\nx".toList, .insert ['b'] ['y'],
    .fix ['b'] (.error (.unopened ['?'])), .text ['a'], .rekey [],
    .release ['b'], .text ['a']]

/-- The two files. -/
def twoStored : Store :=
  .ofList [(['a'], "#\"b\"\nx".toList), (['b'], ['y'])]

/-- What is read there, with this answer for `b`. -/
def twoAnswers (answer : Answer) : Path → Answer
  | ['a'] => .ok ["#\"b\"".toList, ['x']]
  | ['b'] => answer
  | _ => .error .missing

theorem read_twoStored (path : Path) :
    (⟨twoStored, []⟩ : Script).read path
      = netAnswer (closedForAWhile.take 6) path := by
  by_cases hb : path = ['b']
  · rw [hb]
    rfl
  by_cases ha : path = ['a']
  · rw [ha]
    rfl
  simp [Script.read, Store.read, twoStored, Store.ofList, Store.get?_insert,
    netAnswer, closedForAWhile, last?, Operation.fixed?, Operation.stored?,
    ha, hb]

/-- The text of the two files. -/
def twoStoredText : Flattened where
  chunks := [⟨['y', '\n'], ['b'], 0⟩, ⟨"\nx\n".toList, ['a'], 0⟩]
  visited := [['a'], ['b']]
  skipped := []

/-- The first call fails, and the second one shows no trace of it. -/
theorem calls_independent_closedForAWhile :
    closedForAWhile[3]? = some (.text ['a']) ∧
    ((start hash).run closedForAWhile)[3]?
      = some (.failed (.unreadable ['b'] ['?'])) ∧
    ((start hash).final (closedForAWhile.take 3)).Keeps
      ((start hash).final (closedForAWhile.take 4)) ∧
    closedForAWhile[6]? = some (.text ['a']) ∧
    (∀ path, (⟨twoStored, []⟩ : Script).read path
      = netAnswer (closedForAWhile.take 6) path) ∧
    ((start hash).run closedForAWhile)[6]?
      = some (.text "y\n\nx\n".toList) := by
  have hcall : (Operation.text ['a']).IsCall := ⟨['a'], .inl rfl⟩
  obtain ⟨first, hfirst, hnewFirst, hkeeps, -⟩ :=
    @calls_independent hash closedForAWhile 3 (.text ['a']) rfl
  obtain ⟨second, hsecond, hnew, -⟩ :=
    @calls_independent hash closedForAWhile 6 (.text ['a']) rfl
  have hfailed : first = .failed (.unreadable ['b'] ['?']) := by
    have hw : (walk? ((start hash).final
        (closedForAWhile.take 3)).files.source.reader hash ['a']).map
        Walk.result = some (.error (.unreadable ['b'] ['?'])) :=
      map_walk?_of_answers (twoAnswers (.error (.unopened ['?'])))
        [['a'], ['b']] (by cbv) rfl
    rw [walk?_eq_some_walk, Option.map_some, Option.some.injEq] at hw
    rw [(hnewFirst hcall).2 _ (read_final hash _)]
    show replyTo (walk _ hash ['a']) _ = _
    rw [replyTo, hw]
  have htext : second = .text "y\n\nx\n".toList := by
    have hw : (walk? (⟨twoStored, []⟩ : Script).source.reader hash
        ['a']).map Walk.result = some (.ok twoStoredText) :=
      map_walk?_of_answers (twoAnswers (.ok [['y']])) [['a'], ['b']] (by cbv)
        rfl
    rw [walk?_eq_some_walk, Option.map_some, Option.some.injEq] at hw
    rw [(hnew hcall).2 ⟨twoStored, []⟩ read_twoStored]
    show replyTo (walk _ hash ['a']) _ = _
    rw [replyTo, hw]
    rfl
  exact ⟨rfl, by rw [hfirst, hfailed], hkeeps (.inr ⟨_, hfailed⟩), rfl,
    read_twoStored, by rw [hsecond, htext]⟩

end Session

end IncludeFlattener

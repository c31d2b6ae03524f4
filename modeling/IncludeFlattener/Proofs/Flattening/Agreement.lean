/-
IncludeFlattener.Proofs.Flattening.Agreement — flattening depends on no
file but those that it reads.

Which files a walk reads is found out on the way: the next path stands in
the lines of an earlier answer. So two readers are compared along the reads
that a walk made with the first one (`Reader.Agrees`). Where the second one
answers them alike, the rules lead it the same way, line by line and into
the same failure (`Scans.of_agrees`). It makes the same reads for that
reason; nothing needs to be known of what else it holds.
-/
import IncludeFlattener.Flattening
import IncludeFlattener.Source.Store
namespace IncludeFlattener

/-! ## 1. The answers along a row of reads -/

/-- The other reader gives the same answer to each of the reads. -/
def Reader.Agrees (reader other : Reader) : List Path → List Path → Prop
  | _, [] => True
  | earlier, path :: reads =>
    other earlier path = reader earlier path ∧
      reader.Agrees other (earlier ++ [path]) reads

namespace Reader

theorem agrees_append {reader other : Reader} {earlier xs ys : List Path} :
    reader.Agrees other earlier (xs ++ ys) ↔
      reader.Agrees other earlier xs ∧
        reader.Agrees other (earlier ++ xs) ys := by
  induction xs generalizing earlier with
  | nil => simp [Agrees]
  | cons path xs ih =>
    rw [List.cons_append, Agrees, Agrees, ih, List.append_assoc,
      List.singleton_append, and_assoc]

theorem agrees_steady_iff {read other : Path → Answer}
    {earlier reads : List Path} :
    (steady read).Agrees (steady other) earlier reads ↔
      ∀ path ∈ reads, other path = read path := by
  induction reads generalizing earlier with
  | nil => simp [Agrees]
  | cons path reads ih => rw [Agrees, ih, List.forall_mem_cons, steady, steady]

end Reader

/-! ## 2. Walks in lockstep -/

section Lockstep

variable {reader other : Reader} {keyword : Keyword}

/-- The rules give the same walk where the reads have the same answers. -/
theorem Scans.of_agrees {file : Path} {n : Nat} {run : Run}
    {lines : List Text} {visited earlier : List Path} {w : Walk}
    (h : Scans reader keyword file n run lines visited earlier w)
    (ha : reader.Agrees other earlier w.reads) :
    Scans other keyword file n run lines visited earlier w := by
  induction h with
  | nil => exact .nil
  | ordinary hk _ ih => exact .ordinary hk (ih ha)
  | malformed hk => exact .malformed hk
  | selfInclude hk => exact .selfInclude hk
  | skip hk hs hv _ ih => exact .skip hk hs hv (ih ha)
  | unread hk hs hv hr => exact .unread hk hs hv (ha.1.trans hr)
  | innerFailed hk hs hv hr _ hf ih =>
    obtain ⟨htarget, hinner⟩ := ha
    exact .innerFailed hk hs hv (htarget.trans hr) (ih hinner) hf
  | inline hk hs hv hr _ hf _ ihi iha =>
    rw [Walk.reads_append, Walk.reads_append, Walk.entered,
      List.append_assoc, List.singleton_append, Reader.Agrees,
      Reader.agrees_append] at ha
    obtain ⟨htarget, hinner, hafter⟩ := ha
    exact .inline hk hs hv (htarget.trans hr) (ihi hinner) hf (iha hafter)

theorem walk?_eq_of_agrees {top : Path} {w : Walk}
    (hw : walk? reader keyword top = some w)
    (ha : reader.Agrees other [] w.reads) :
    walk? other keyword top = some w := by
  rw [walk?_eq_some_iff] at hw ⊢
  obtain ⟨e, hr, rfl⟩ | ⟨lines, inner, hr, hi, rfl⟩ := hw
  · exact .inl ⟨e, ha.1.trans hr, rfl⟩
  · obtain ⟨htop, hinner⟩ := ha
    exact .inr ⟨lines, inner, htop.trans hr, hi.of_agrees hinner, rfl⟩

end Lockstep

/-- What is known of a walk under these answers is known of it under others
that are the same for each of its reads. -/
theorem map_walk?_of_answers {α : Type} {read : Path → Answer}
    {keyword : Keyword} {top : Path} {g : Walk → α} {x : α}
    (answers : Path → Answer) (reads : List Path)
    (hg : (walk? (.steady answers) keyword top).map
      (fun w => (w.reads, g w)) = some (reads, x))
    (h : reads.map read = reads.map answers) :
    (walk? (.steady read) keyword top).map g = some x := by
  obtain ⟨w, hw, he⟩ := Option.map_eq_some_iff.1 hg
  obtain ⟨rfl, rfl⟩ := Prod.mk.inj he
  rw [walk?_eq_of_agrees hw
    (Reader.agrees_steady_iff.2 (List.map_inj_left.1 h)), Option.map_some]

/-! ## 3. Two sources -/

/-- **Only the files that are read matter.** If another source answers each
path that a walk read as the first source does, the walk through its files
is the same: it reads the same paths in the same order, and gives the same
text with the same account, or the same failure. -/
theorem walk_eq_of_read_eq {source other : Source} {keyword : Keyword}
    {top : Path}
    (h : ∀ path ∈ (walk source keyword top).reads,
      other.read path = source.read path) :
    (walk other keyword top).reads = (walk source keyword top).reads ∧
      flatten other keyword top = flatten source keyword top ∧
      walk other keyword top = walk source keyword top := by
  have ha : source.reader.Agrees other.reader []
      (walk source keyword top).reads := Reader.agrees_steady_iff.2 h
  have hw := walk?_eq_of_agrees (walk?_eq_some_walk source keyword top) ha
  have he : walk other keyword top = walk source keyword top :=
    Option.some.inj ((walk?_eq_some_walk other keyword top).symm.trans hw)
  exact ⟨congrArg _ he, congrArg _ he, he⟩

/-- The file `a` includes `b`, and `b` includes `a` and `c`. There is no
`c`. -/
def lacking : Store :=
  .ofList [(['a'], "x\n//#include \"b\"\n".toList),
    (['b'], "//#include \"a\"\n//#include \"c\"\n".toList)]

/-- What is read there. -/
def lackingAnswers : Path → Answer
  | ['a'] => .ok [['x'], "//#include \"b\"".toList]
  | ['b'] => .ok ["//#include \"a\"".toList, "//#include \"c\"".toList]
  | _ => .error .missing

/-- Flattening `a` reads `c` in vain, also where there is a file `d`. -/
theorem walk_eq_of_read_eq_lacking :
    (walk lacking.source .default ['a']).reads = [['a'], ['b'], ['c']] ∧
    (∀ path ∈ (walk lacking.source .default ['a']).reads,
      (lacking.insert ['d'] ['z']).source.read path
        = lacking.source.read path) ∧
    (walk (lacking.insert ['d'] ['z']).source .default ['a']).reads
      = [['a'], ['b'], ['c']] ∧
    flatten (lacking.insert ['d'] ['z']).source .default ['a']
      = .error (.missing ['c']) := by
  have hw : (walk? lacking.source.reader .default ['a']).map
      (fun w => (w.reads, w.result))
        = some ([['a'], ['b'], ['c']], .error (.missing ['c'])) :=
    map_walk?_of_answers lackingAnswers _ (by cbv) rfl
  rw [walk?_eq_some_walk, Option.map_some, Option.some.injEq,
    Prod.mk.injEq] at hw
  obtain ⟨hreads, hresult⟩ := hw
  have h : ∀ path ∈ (walk lacking.source .default ['a']).reads,
      (lacking.insert ['d'] ['z']).source.read path
        = lacking.source.read path := by
    intro path hm
    have hd : path ≠ ['d'] := by
      rintro rfl
      rw [hreads] at hm
      exact absurd hm (by decide)
    show (lacking.insert ['d'] ['z']).read path = lacking.read path
    rw [Store.read, Store.read, Store.get?_insert, if_neg hd]
  obtain ⟨h1, h2, -⟩ := walk_eq_of_read_eq h
  exact ⟨hreads, h, h1.trans hreads, h2.trans hresult⟩

end IncludeFlattener

import PrussBindings.Lib.Words

/-!
# POSIX paths

Paths as text, and paths in a file tree.

* `split`, `join`, `basename` — a path and its components.
* `normpath` — Python's `os.path.normpath`, a stack machine over the
  components; `normpath_canonical` says that it leaves canonical paths alone.
* `Tree`, `Tree.resolve` — a file tree without symbolic links, and the walk by
  which the kernel resolves a path in it.
* `Tree.resolve_normpath` — **in such a tree normalising keeps the meaning**: a
  path that resolves still resolves, to the same place, after `normpath`.
* `Tree.dir_of_special` — a path that ends in `/`, `/.` or `/..` can only
  resolve to a directory.
* `Tree.openLoc_canonical` — opening a canonical path for writing touches the
  place it spells.
-/

namespace Path

open Text

/-- A component of a path. -/
abbrev Comp := Str

/-- The `"."` component. -/
def dot : Comp := ['.']

/-- The `".."` component. -/
def dotdot : Comp := ['.', '.']

/-! ## Paths as text -/

/-- `p.split("/")`. -/
def split (p : Str) : List Comp := p.splitOn '/'

/-- `"/".join(cs)`. -/
def join (cs : List Comp) : Str := ['/'].intercalate cs

@[simp] theorem join_singleton (c : Comp) : join [c] = c := by simp [join]

theorem join_cons_cons (c d : Comp) (cs : List Comp) :
    join (c :: d :: cs) = c ++ '/' :: join (d :: cs) := by simp [join]

/-- `p.split("/")[-1]`. -/
def basename (p : Str) : Comp := (split p).getLast (List.splitOn_ne_nil _ _)

/-- A component that can be the name of a file. -/
def IsName (c : Comp) : Prop := c ≠ [] ∧ c ≠ dot ∧ c ≠ dotdot ∧ '/' ∉ c

instance (c : Comp) : Decidable (IsName c) :=
  inferInstanceAs (Decidable (_ ∧ _ ∧ _ ∧ _))

theorem split_ne_nil (p : Str) : split p ≠ [] := List.splitOn_ne_nil _ _

theorem split_join {cs : List Comp} (hne : cs ≠ []) (h : ∀ c ∈ cs, '/' ∉ c) :
    split (join cs) = cs :=
  List.splitOn_intercalate '/' h hne

theorem split_slash (p : Str) : split ('/' :: p) = [] :: split p := by
  have h := List.splitOn_append_cons_self (a := '/') [] p
  rwa [List.nil_append, List.splitOn_nil, List.singleton_append] at h

theorem slash_not_mem_split (p : Str) : ∀ c ∈ split p, '/' ∉ c := by
  induction p with
  | nil => simp [split]
  | cons d p ih =>
    unfold split at ih ⊢
    rw [List.splitOn_cons_eq_if_modifyHead]
    by_cases hd : (d == '/') = true
    · rw [if_pos hd]
      intro c hc
      rcases List.mem_cons.1 hc with rfl | hc
      · simp
      · exact ih c hc
    · rw [if_neg hd]
      cases hp : p.splitOn '/' with
      | nil => exact absurd hp (List.splitOn_ne_nil _ _)
      | cons q qs =>
        rw [hp] at ih
        intro c hc
        rcases List.mem_cons.1 hc with rfl | hc
        · rw [List.mem_cons, not_or]
          exact ⟨fun h => hd (by rw [← h]; rfl), ih q (List.mem_cons_self ..)⟩
        · exact ih c (List.mem_cons_of_mem _ hc)

theorem slash_not_mem_basename (p : Str) : '/' ∉ basename p :=
  slash_not_mem_split p _ (List.getLast_mem _)

/-! ## `os.path.normpath` -/

/-- One step of the stack machine of `normpath`; the top of the stack is the
head of the list. -/
def pushComp (absolute : Bool) (st : List Comp) (c : Comp) : List Comp :=
  if c = [] ∨ c = dot then st
  else if c ≠ dotdot ∨ (absolute = false ∧ st = []) ∨ st.head? = some dotdot then c :: st
  else st.tail

/-- `initial_slashes`: POSIX keeps two leading slashes, and no other number. -/
def initialSlashes (p : Str) : Str :=
  match p with
  | '/' :: '/' :: '/' :: _ => ['/']
  | '/' :: '/' :: _ => ['/', '/']
  | '/' :: _ => ['/']
  | _ => []

/-- `os.path.normpath`. -/
def normpath (p : Str) : Str :=
  let slashes := initialSlashes p
  let comps := ((split p).foldl (pushComp (slashes ≠ [])) []).reverse
  let path := slashes ++ join comps
  if path = [] then dot else path

theorem pushComp_name {absolute : Bool} {st : List Comp} {c : Comp} (hc : IsName c) :
    pushComp absolute st c = c :: st := by
  unfold pushComp
  rw [if_neg (by rintro (h | h); exacts [hc.1 h, hc.2.1 h]), if_pos (.inl hc.2.2.1)]

theorem foldl_pushComp_names {absolute : Bool} {cs : List Comp} (h : ∀ c ∈ cs, IsName c)
    (st : List Comp) : cs.foldl (pushComp absolute) st = cs.reverse ++ st := by
  induction cs generalizing st with
  | nil => rfl
  | cons c cs ih =>
    rw [List.foldl_cons, pushComp_name (h c (List.mem_cons_self ..)),
      ih fun d hd => h d (List.mem_cons_of_mem _ hd)]
    simp

/-- The absolute path with the given components. -/
def canonical (cs : List Comp) : Str := '/' :: join cs

theorem join_cons_head {c : Comp} (hc : '/' ∉ c ∧ c ≠ []) (cs : List Comp) :
    ∃ d s, d ≠ '/' ∧ join (c :: cs) = d :: s := by
  obtain ⟨d, s, rfl⟩ := List.exists_cons_of_ne_nil hc.2
  have hd : d ≠ '/' := fun h => hc.1 (by simp [h])
  cases cs with
  | nil => exact ⟨d, s, hd, by simp [join]⟩
  | cons e es => exact ⟨d, s ++ ['/'] ++ join (e :: es), hd, by simp [join]⟩

theorem split_canonical {cs : List Comp} (hne : cs ≠ []) (h : ∀ c ∈ cs, IsName c) :
    split (canonical cs) = [] :: cs := by
  unfold canonical
  rw [split_slash, split_join hne fun c hc => (h c hc).2.2.2]

/-- **`normpath` leaves canonical paths alone.** -/
theorem normpath_canonical {cs : List Comp} (hne : cs ≠ []) (h : ∀ c ∈ cs, IsName c) :
    normpath (canonical cs) = canonical cs := by
  have hslashes : initialSlashes (canonical cs) = ['/'] := by
    obtain ⟨c, cs', rfl⟩ := List.exists_cons_of_ne_nil hne
    have hc : IsName c := h c (List.mem_cons_self ..)
    obtain ⟨d, s, hd, hs⟩ := join_cons_head ⟨hc.2.2.2, hc.1⟩ cs'
    unfold canonical
    rw [hs]
    unfold initialSlashes
    split
    · rename_i heq; exact absurd (List.cons.inj (List.cons.inj heq).2).1 hd
    · rename_i heq; exact absurd (List.cons.inj (List.cons.inj heq).2).1 hd
    · rfl
    · rename_i hno; exact absurd rfl (hno _)
  have hfold : (split (canonical cs)).foldl (pushComp true) [] = cs.reverse := by
    rw [split_canonical hne h, List.foldl_cons, show pushComp true [] [] = [] from rfl,
      foldl_pushComp_names h, List.append_nil]
  unfold normpath
  simp only [hslashes, show decide (['/'] ≠ ([] : Str)) = true from rfl, hfold, List.reverse_reverse]
  rfl

/-- The components of a normalised path. -/
def comps (p : Str) : List Comp :=
  ((split p).foldl (pushComp (initialSlashes p ≠ [])) []).reverse

/-- The normalised path lies below the directory. -/
def Below (dir p : Str) : Prop :=
  (initialSlashes dir = [] ↔ initialSlashes p = []) ∧ comps dir <+: comps p ∧
    comps dir ≠ comps p ∧ dotdot ∉ (comps p).drop (comps dir).length

instance (dir p : Str) : Decidable (Below dir p) := inferInstanceAs (Decidable (_ ∧ _ ∧ _ ∧ _))

/-! ## Paths in a file tree -/

/-- A place in a file tree: the names on the way from the root. -/
abbrev Loc := List Comp

/-- What can be found at a place. -/
inductive Kind where
  | dir
  | file
  deriving DecidableEq, Repr

/-- A file tree without symbolic links, seen by a process with a working
directory. -/
structure Tree where
  kind : Loc → Option Kind
  cwd : Loc
  root_dir : kind [] = some .dir
  cwd_dir : kind cwd = some .dir
  parent_dir : ∀ l c, kind (l ++ [c]) ≠ none → kind l = some .dir

namespace Tree

/-- The tree with the given entries. -/
def ofEntries (entries : List (Loc × Kind)) (cwd : Loc) (hroot : entries.lookup [] = some .dir)
    (hcwd : entries.lookup cwd = some .dir)
    (hparent : ∀ e ∈ entries, e.1 ≠ [] → entries.lookup e.1.dropLast = some .dir) : Tree where
  kind l := entries.lookup l
  cwd := cwd
  root_dir := hroot
  cwd_dir := hcwd
  parent_dir l c h := by
    obtain ⟨k, hk⟩ := Option.ne_none_iff_exists'.1 h
    obtain ⟨as, bs, heq, -⟩ := List.lookup_eq_some_iff.1 hk
    have hdir := hparent (l ++ [c], k) (by rw [heq]; simp) (by simp)
    rwa [List.dropLast_concat] at hdir

/-- The walk along the components of a path.  Every component, even an empty
one, can only be looked up in a directory. -/
def walk (t : Tree) (l : Loc) : List Comp → Option Loc
  | [] => some l
  | c :: cs =>
    if t.kind l ≠ some .dir then none
    else if c = [] ∨ c = dot then t.walk l cs
    else if c = dotdot then t.walk l.dropLast cs
    else if t.kind (l ++ [c]) = none then none
    else t.walk (l ++ [c]) cs

/-- Where the walk along a path starts. -/
def start (t : Tree) (p : Str) : Loc := if p.head? = some '/' then [] else t.cwd

/-- The place a path names, `none` if there is none. -/
def resolve (t : Tree) (p : Str) : Option Loc :=
  if p = [] then none else t.walk (t.start p) (split p)

/-- The place that opening a path for writing writes to or creates: the last
component need not exist. -/
def openLoc (t : Tree) (p : Str) : Option Loc :=
  if IsName (basename p) then
    (t.walk (t.start p) (split p).dropLast).map (· ++ [basename p])
  else t.resolve p

variable {t : Tree}

theorem parent_of_dir {l : Loc} (h : t.kind l = some .dir) : t.kind l.dropLast = some .dir := by
  rcases List.eq_nil_or_concat l with rfl | ⟨l', c, rfl⟩
  · exact h
  · rw [List.concat_eq_append] at h ⊢
    rw [List.dropLast_concat]
    exact t.parent_dir l' c (by rw [h]; simp)

theorem walk_append (l : Loc) (cs ds : List Comp) :
    t.walk l (cs ++ ds) = (t.walk l cs).bind fun m => t.walk m ds := by
  induction cs generalizing l with
  | nil => rfl
  | cons c cs ih =>
    rw [List.cons_append, walk, walk]
    split_ifs
    · rfl
    · exact ih l
    · exact ih _
    · rfl
    · exact ih _

/-- What a single component does. -/
theorem walk_singleton {l m : Loc} {c : Comp} (h : t.walk l [c] = some m) :
    t.kind l = some .dir ∧
      ((c = [] ∨ c = dot) ∧ m = l ∨
        c = dotdot ∧ m = l.dropLast ∨
        ¬ (c = [] ∨ c = dot) ∧ c ≠ dotdot ∧ m = l ++ [c]) := by
  simp only [walk] at h
  split_ifs at h with hdir hdot hdd hnone
  · cases h
    exact ⟨not_not.1 hdir, .inl ⟨hdot, rfl⟩⟩
  · cases h
    exact ⟨not_not.1 hdir, .inr (.inl ⟨hdd, rfl⟩)⟩
  · cases h
    exact ⟨not_not.1 hdir, .inr (.inr ⟨hdot, hdd, rfl⟩)⟩

/-- **A path that ends in `/`, `/.` or `/..` can only name a directory.** -/
theorem dir_of_special {p : Str} {l : Loc} (hp : t.resolve p = some l)
    (hb : ¬ IsName (basename p)) : t.kind l = some .dir := by
  unfold resolve at hp
  by_cases hnil : p = []
  · rw [if_pos hnil] at hp
    cases hp
  · rw [if_neg hnil, ← List.dropLast_append_getLast (split_ne_nil p), walk_append,
      Option.bind_eq_some_iff] at hp
    obtain ⟨m, -, hlast⟩ := hp
    have hslash : '/' ∉ (split p).getLast (split_ne_nil p) := slash_not_mem_basename p
    obtain ⟨hdir, ⟨-, rfl⟩ | ⟨-, rfl⟩ | ⟨hspecial, hdd, -⟩⟩ := walk_singleton hlast
    · exact hdir
    · exact parent_of_dir hdir
    · exact absurd
        ⟨fun h => hspecial (.inl h), fun h => hspecial (.inr h), hdd, hslash⟩ hb

/-- The walk along plain names spells the place it ends at. -/
theorem walk_names {l m : Loc} {cs : List Comp} (h : ∀ c ∈ cs, IsName c)
    (hw : t.walk l cs = some m) : m = l ++ cs := by
  induction cs generalizing l with
  | nil =>
    cases hw
    simp
  | cons c cs ih =>
    have hc := h c (List.mem_cons_self ..)
    unfold walk at hw
    split_ifs at hw with hdir hdot hdd hnone
    · exact absurd hdot (by rintro (h | h); exacts [hc.1 h, hc.2.1 h])
    · exact absurd hdd hc.2.2.1
    · rw [ih (fun d hd => h d (List.mem_cons_of_mem _ hd)) hw]
      simp

/-- **Opening a canonical path for writing touches the place it spells.** -/
theorem openLoc_canonical {cs : List Comp} {l : Loc} (hne : cs ≠ []) (h : ∀ c ∈ cs, IsName c)
    (hl : t.openLoc (canonical cs) = some l) : l = cs := by
  have hsplit := split_canonical hne h
  have hlast : basename (canonical cs) = cs.getLast hne := by
    unfold basename
    simp only [hsplit, List.getLast_cons hne]
  unfold openLoc at hl
  rw [hlast, if_pos (h _ (List.getLast_mem hne)), hsplit, List.dropLast_cons_of_ne_nil hne,
    Option.map_eq_some_iff] at hl
  obtain ⟨d, hd, rfl⟩ := hl
  have hstart : t.start (canonical cs) = [] := rfl
  rw [hstart] at hd
  simp only [walk, t.root_dir, ne_eq, not_true_eq_false, if_false, true_or, if_true] at hd
  rw [walk_names (fun c hc => h c (List.mem_of_mem_dropLast hc)) hd, List.nil_append,
    List.dropLast_append_getLast hne]

/-! ## Normalising keeps the meaning -/

/-- What the stack of `normpath` says about the place reached so far. -/
structure StackAt (t : Tree) (absolute : Bool) (st : List Comp) (l0 l : Loc) : Prop where
  at_stack : t.walk l0 st.reverse = some l
  slash : ∀ c ∈ st, '/' ∉ c ∧ c ≠ [] ∧ c ≠ dot
  root : absolute = true → l0 = []

/-- A component is taken off the stack: the directory above it, or the root. -/
theorem StackAt.pop {absolute : Bool} {st : List Comp} {l0 l : Loc}
    (h : StackAt t absolute st l0 l) (hroot : ¬ (absolute = false ∧ st = []))
    (htop : ¬ st.head? = some dotdot) : StackAt t absolute st.tail l0 l.dropLast := by
  cases st with
  | nil =>
    have habs : absolute = true := by
      cases absolute with
      | true => rfl
      | false => exact absurd ⟨rfl, rfl⟩ hroot
    have hl : l0 = l := Option.some_inj.1 h.at_stack
    refine ⟨?_, h.slash, h.root⟩
    rw [← hl, h.root habs]
    rfl
  | cons top rest =>
    have hat := h.at_stack
    rw [List.reverse_cons, walk_append, Option.bind_eq_some_iff] at hat
    obtain ⟨d, hd, htopw⟩ := hat
    have htop' : top ≠ dotdot := fun h => htop (by rw [h]; rfl)
    have hrest := List.forall_mem_cons.1 h.slash
    refine ⟨?_, hrest.2, h.root⟩
    obtain ⟨-, ⟨hx, -⟩ | ⟨hx, -⟩ | ⟨-, -, rfl⟩⟩ := walk_singleton htopw
    · exact absurd hx (by rintro (hx | hx); exacts [hrest.1.2.1 hx, hrest.1.2.2 hx])
    · exact absurd hx htop'
    · rw [List.tail_cons, hd, List.dropLast_concat]

theorem StackAt.push {absolute : Bool} {st : List Comp} {l0 l m : Loc} {c : Comp}
    (h : StackAt t absolute st l0 l) (hc : '/' ∉ c) (hw : t.walk l [c] = some m) :
    StackAt t absolute (pushComp absolute st c) l0 m := by
  have hpush (hcomp : c ≠ [] ∧ c ≠ dot) : StackAt t absolute (c :: st) l0 m := by
    refine ⟨?_, List.forall_mem_cons.2 ⟨⟨hc, hcomp⟩, h.slash⟩, h.root⟩
    rw [List.reverse_cons, walk_append, h.at_stack]
    exact hw
  unfold pushComp
  by_cases hskip : c = [] ∨ c = dot
  · rw [if_pos hskip]
    obtain ⟨-, ⟨-, rfl⟩ | ⟨rfl, -⟩ | ⟨hx, -, -⟩⟩ := walk_singleton hw
    · exact h
    · exact absurd hskip (by decide)
    · exact absurd hskip hx
  · rw [if_neg hskip]
    have hcomp : c ≠ [] ∧ c ≠ dot := not_or.1 hskip
    by_cases hkeep : c ≠ dotdot ∨ (absolute = false ∧ st = []) ∨ st.head? = some dotdot
    · rw [if_pos hkeep]
      exact hpush hcomp
    · rw [if_neg hkeep]
      obtain ⟨hdd, hbelow⟩ := not_or.1 hkeep
      obtain ⟨hroot, htop⟩ := not_or.1 hbelow
      obtain rfl : c = dotdot := not_not.1 hdd
      obtain ⟨-, ⟨hx, -⟩ | ⟨-, rfl⟩ | ⟨-, hx, -⟩⟩ := walk_singleton hw
      · exact absurd hx (by decide)
      · exact h.pop hroot htop
      · exact absurd rfl hx

theorem StackAt.fold {absolute : Bool} {cs st : List Comp} {l0 l m : Loc}
    (h : StackAt t absolute st l0 l) (hcs : ∀ c ∈ cs, '/' ∉ c) (hw : t.walk l cs = some m) :
    StackAt t absolute (cs.foldl (pushComp absolute) st) l0 m := by
  induction cs generalizing st l with
  | nil =>
    cases hw
    exact h
  | cons c cs ih =>
    rw [← List.singleton_append, walk_append, Option.bind_eq_some_iff] at hw
    obtain ⟨k, hk, hrest⟩ := hw
    exact ih (h.push (hcs c (List.mem_cons_self ..)) hk)
      (fun d hd => hcs d (List.mem_cons_of_mem _ hd)) hrest

theorem initialSlashes_eq_nil_iff (p : Str) : initialSlashes p = [] ↔ p.head? ≠ some '/' := by
  cases p with
  | nil => simp [initialSlashes]
  | cons c p =>
    by_cases hc : c = '/'
    · subst hc
      refine iff_of_false ?_ (by simp)
      unfold initialSlashes
      split <;> simp_all
    · refine iff_of_true ?_ (by simpa using hc)
      unfold initialSlashes
      split <;> simp_all

theorem initialSlashes_cases (p : Str) :
    initialSlashes p = [] ∨ initialSlashes p = ['/'] ∨ initialSlashes p = ['/', '/'] := by
  unfold initialSlashes
  split <;> simp

/-- An empty component at the front of an absolute path does not move the walk. -/
@[simp] theorem walk_root_nil (cs : List Comp) : t.walk [] ([] :: cs) = t.walk [] cs := by
  simp [walk, t.root_dir]

theorem walk_split_join {cs : List Comp} (h : ∀ c ∈ cs, '/' ∉ c) :
    t.walk [] (split (join cs)) = t.walk [] cs := by
  by_cases hcs : cs = []
  · subst hcs
    exact walk_root_nil []
  · rw [split_join hcs h]

/-- A path put together from slashes and components resolves to where the walk
along the components leads. -/
theorem resolve_join {slashes : Str} {cs : List Comp}
    (hs : slashes = [] ∨ slashes = ['/'] ∨ slashes = ['/', '/'])
    (hcs : ∀ c ∈ cs, '/' ∉ c ∧ c ≠ []) :
    t.resolve (if slashes ++ join cs = [] then dot else slashes ++ join cs) =
      t.walk (if slashes = [] then t.cwd else []) cs := by
  have hslash : ∀ c ∈ cs, '/' ∉ c := fun c hc => (hcs c hc).1
  rcases hs with rfl | rfl | rfl
  · rw [List.nil_append, if_pos rfl]
    cases cs with
    | nil =>
      show t.walk t.cwd [dot] = some t.cwd
      simp [walk, t.cwd_dir]
    | cons c cs =>
      obtain ⟨d, s, hd, hj⟩ := join_cons_head (hcs c (List.mem_cons_self ..)) cs
      have hne : join (c :: cs) ≠ [] := by rw [hj]; simp
      have hstart : t.start (join (c :: cs)) = t.cwd := by
        unfold start
        rw [hj, if_neg (by simpa using hd)]
      unfold resolve
      rw [if_neg hne, if_neg hne, hstart, split_join (by simp) hslash]
  · show t.walk [] (split ('/' :: join cs)) = t.walk [] cs
    rw [split_slash, walk_root_nil, walk_split_join hslash]
  · show t.walk [] (split ('/' :: '/' :: join cs)) = t.walk [] cs
    rw [split_slash, split_slash, walk_root_nil, walk_root_nil, walk_split_join hslash]

/-- **Normalising keeps the meaning**: a path that names something names the
same thing after `normpath`. -/
theorem resolve_normpath {p : Str} {l : Loc} (hp : t.resolve p = some l) :
    t.resolve (normpath p) = some l := by
  have hstart : t.start p = if initialSlashes p = [] then t.cwd else [] := by
    unfold start
    by_cases hs : initialSlashes p = []
    · rw [if_pos hs, if_neg ((initialSlashes_eq_nil_iff p).1 hs)]
    · rw [if_neg hs, if_pos (not_not.1 fun h => hs ((initialSlashes_eq_nil_iff p).2 h))]
  unfold resolve at hp
  by_cases hnil : p = []
  · rw [if_pos hnil] at hp
    cases hp
  · rw [if_neg hnil] at hp
    have hinit : StackAt t (initialSlashes p ≠ []) [] (t.start p) (t.start p) := by
      refine ⟨rfl, by simp, fun h => ?_⟩
      rw [hstart, if_neg (of_decide_eq_true h)]
    have hst := hinit.fold (slash_not_mem_split p) hp
    have hat := hst.at_stack
    rw [hstart, ← resolve_join (initialSlashes_cases p)] at hat
    · exact hat
    · intro c hc
      have hok := hst.slash c (List.mem_reverse.1 hc)
      exact ⟨hok.1, hok.2.1⟩

end Tree

end Path

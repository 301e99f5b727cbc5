/-
Trees of directories, files and symbolic links: how a text is followed through
one, what `stat` and `mkdir` answer, and what a tree keeps when directories are
added to it.

A location is the list of names from the root, innermost first: a child is one
`cons`, and `..` is the tail.
-/
import Mathlib.Data.List.Basic
import Mathlib.Data.List.TakeWhile

namespace FileTree

abbrev Text := List Char
abbrev Loc := List Text

inductive Node where
  | file
  | dir
  | link (target : Text)
  deriving DecidableEq

inductive Errno where
  | EEXIST
  | ENOENT
  | ENOTDIR
  | ELOOP
  | other (n : Nat)
  deriving DecidableEq

/-- The tree, with the directory a process works in and the number of links one text may pass. -/
structure FileSystem where
  node : Loc → Option Node
  cwd : Loc
  maxLinks : Nat
  root : node [] = some .dir
  parent : ∀ name loc, (node (name :: loc)).isSome → node loc = some .dir

/-! ## Following a text -/

def components (t : Text) : List Text := t.splitOn '/'

/-- Where a text starts: at the root when it begins with a slash. -/
def startAt (loc : Loc) (t : Text) : Loc := if t.head? = some '/' then [] else loc

/-- A text of slashes starts at the root. -/
theorem startAt_of_blank {loc : Loc} {t : Text} (hne : t ≠ []) (h : ∀ b ∈ components t, b = []) :
    startAt loc t = [] := by
  cases t with
  | nil => exact absurd rfl hne
  | cons c t =>
    by_cases hc : c = '/'
    · rw [startAt, hc]
      rfl
    · rw [components, List.splitOn_cons_eq_if_modifyHead, if_neg (by simpa using hc)] at h
      cases hcomp : t.splitOn '/' with
      | nil => exact absurd hcomp (List.splitOn_ne_nil _ _)
      | cons b bs =>
        rw [hcomp] at h
        exact absurd (h (c :: b) List.mem_cons_self) (List.cons_ne_nil c b)

namespace FileSystem

variable (fs : FileSystem)

/-- The error for a location that had to be a directory. -/
def notDir (loc : Loc) : Errno := if (fs.node loc).isSome then .ENOTDIR else .ENOENT

/-- One name looked up in `loc`: the location it leads to, or the text of the link it is. -/
def look (loc : Loc) (name : Text) : Except Errno (Loc ⊕ Text) :=
  if fs.node loc ≠ some .dir then .error (fs.notDir loc)
  else if name = [] ∨ name = ['.'] then .ok (.inl loc)
  else if name = ['.', '.'] then .ok (.inl loc.tail)
  else match fs.node (name :: loc) with
    | none => .error .ENOENT
    | some (.link target) => .ok (.inr target)
    | some _ => .ok (.inl (name :: loc))

/-- One name after another from `loc`; `onLink` goes on with the rest where a link is met. -/
def walkWith (onLink : Loc → Text → List Text → Except Errno Loc) : Loc → List Text → Except Errno Loc
  | loc, [] => .ok loc
  | loc, name :: rest =>
    match fs.look loc name with
    | .error e => .error e
    | .ok (.inl loc) => walkWith onLink loc rest
    | .ok (.inr target) => onLink loc target rest

/-- The walk that may still pass the given number of links. -/
def walk : Nat → Loc → List Text → Except Errno Loc
  | 0 => fs.walkWith fun _ _ _ => .error .ELOOP
  | k + 1 => fs.walkWith fun loc target rest =>
    if target = [] then .error .ENOENT else walk k (startAt loc target) (components target ++ rest)

def resolve (t : Text) : Except Errno Loc :=
  if t = [] then .error .ENOENT else fs.walk fs.maxLinks (startAt fs.cwd t) (components t)

def stat (t : Text) : Except Errno Node :=
  match fs.resolve t with
  | .error e => .error e
  | .ok loc => match fs.node loc with
    | none => .error .ENOENT
    | some n => .ok n

variable {fs} {fs' : FileSystem} {k : Nat} {loc l m : Loc} {name target : Text} {names as bs : List Text}

theorem look_dir {r : Loc ⊕ Text} (h : fs.look loc name = .ok r) : fs.node loc = some .dir := by
  by_contra hdir
  rw [look, if_pos hdir] at h
  cases h

theorem look_self (hdir : fs.node loc = some .dir) (hname : name = [] ∨ name = ['.']) :
    fs.look loc name = .ok (.inl loc) := by
  rw [look, if_neg (not_not.mpr hdir), if_pos hname]

/-- What a name leads to that is no link is a directory or a file. -/
theorem look_node (h : fs.look loc name = .ok (.inl l)) : fs.node l = some .dir ∨ fs.node l = some .file := by
  have hdir := look_dir h
  rw [look, if_neg (not_not.mpr hdir)] at h
  split at h
  · cases h
    exact .inl hdir
  split at h
  · cases h
    cases loc with
    | nil => exact .inl fs.root
    | cons name' loc => exact .inl (fs.parent name' loc (by rw [hdir]; rfl))
  split at h
  · cases h
  · cases h
  · rename_i n hlink hn
    cases h
    cases n with
    | file => exact .inr hn
    | dir => exact .inl hn
    | link target => exact absurd rfl (hlink target)

/-- A walk that arrives, one look at a time. -/
inductive Walks (fs : FileSystem) : Nat → Loc → List Text → Loc → Prop where
  | done (k : Nat) (loc : Loc) : Walks fs k loc [] loc
  | step {k : Nat} {loc m l : Loc} {name : Text} {names : List Text} (hlook : fs.look loc name = .ok (.inl m))
      (hrest : Walks fs k m names l) : Walks fs k loc (name :: names) l
  | link {k : Nat} {loc l : Loc} {name target : Text} {names : List Text} (hlook : fs.look loc name = .ok (.inr target))
      (hne : target ≠ []) (hrest : Walks fs k (startAt loc target) (components target ++ names) l) :
      Walks fs (k + 1) loc (name :: names) l

theorem walkWith_ok {onLink : Loc → Text → List Text → Except Errno Loc}
    (hlink : ∀ loc name target names, fs.look loc name = .ok (.inr target) →
      onLink loc target names = .ok l → fs.Walks k loc (name :: names) l)
    (h : fs.walkWith onLink loc names = .ok l) : fs.Walks k loc names l := by
  induction names generalizing loc with
  | nil =>
    cases h
    exact .done k _
  | cons name names ih =>
    rw [walkWith] at h
    split at h
    · cases h
    · rename_i m hlook
      exact .step hlook (ih h)
    · rename_i target hlook
      exact hlink loc name target names hlook h

theorem walks_of_walk (h : fs.walk k loc names = .ok l) : fs.Walks k loc names l := by
  induction k generalizing loc names with
  | zero =>
    have hw : fs.walkWith (fun _ _ _ => .error .ELOOP) loc names = .ok l := h
    refine walkWith_ok (fun _ _ _ _ _ h => ?_) hw
    cases h
  | succ k ih =>
    refine walkWith_ok (fun loc name target names hlook h => ?_) h
    split at h
    · cases h
    · rename_i hne
      exact .link hlook hne (ih h)

theorem walk_of_walks (h : fs.Walks k loc names l) : fs.walk k loc names = .ok l := by
  induction h with
  | done k loc => cases k <;> rfl
  | @step k loc m l name names hlook _ ih =>
    cases k with
    | zero =>
      rw [walk, walkWith, hlook]
      exact ih
    | succ k =>
      rw [walk, walkWith, hlook]
      exact ih
  | link hlook hne _ ih =>
    rw [walk, walkWith, hlook]
    exact (if_neg hne).trans ih

theorem walk_eq_ok : fs.walk k loc names = .ok l ↔ fs.Walks k loc names l := ⟨walks_of_walk, walk_of_walks⟩

theorem look_ne_exists : fs.look loc name ≠ .error .EEXIST := by
  intro h
  rw [look, notDir] at h
  split at h
  · split at h <;> cases h
  split at h
  · cases h
  split at h
  · cases h
  split at h <;> cases h

theorem walkWith_ne_exists {onLink : Loc → Text → List Text → Except Errno Loc}
    (hlink : ∀ loc target rest, onLink loc target rest ≠ .error .EEXIST) :
    fs.walkWith onLink loc names ≠ .error .EEXIST := by
  induction names generalizing loc with
  | nil => exact fun h => nomatch h
  | cons name names ih =>
    rw [walkWith]
    split
    · rename_i e he
      rintro ⟨⟩
      exact look_ne_exists he
    · exact ih
    · exact hlink _ _ _

/-- Following a text never tells that something is there. -/
theorem walk_ne_exists : fs.walk k loc names ≠ .error .EEXIST := by
  induction k generalizing loc names with
  | zero =>
    have hw : fs.walkWith (fun _ _ _ => .error .ELOOP) loc names ≠ .error .EEXIST :=
      walkWith_ne_exists fun _ _ _ h => nomatch h
    exact hw
  | succ k ih =>
    rw [walk]
    refine walkWith_ne_exists fun loc target rest => ?_
    split
    · exact fun h => nomatch h
    · exact ih

/-- Where a walk passes on its way is a directory. -/
theorem Walks.front (h : fs.Walks k loc (as ++ bs) l) (hbs : bs ≠ []) :
    ∃ m, fs.Walks k loc as m ∧ fs.node m = some .dir := by
  generalize hcs : as ++ bs = cs at h
  induction h generalizing as with
  | done k loc => exact absurd (List.append_eq_nil_iff.mp hcs).2 hbs
  | @step k loc _ _ name names hlook _ ih =>
    cases as with
    | nil => exact ⟨loc, .done k loc, look_dir hlook⟩
    | cons a as =>
      rw [List.cons_append, List.cons.injEq] at hcs
      obtain ⟨rfl, hcs⟩ := hcs
      obtain ⟨m, hm, hdir⟩ := ih hcs
      exact ⟨m, .step hlook hm, hdir⟩
  | @link k loc _ name target names hlook hne _ ih =>
    cases as with
    | nil => exact ⟨loc, .done (k + 1) loc, look_dir hlook⟩
    | cons a as =>
      rw [List.cons_append, List.cons.injEq] at hcs
      obtain ⟨rfl, hcs⟩ := hcs
      have happ : (components target ++ as) ++ bs = components target ++ names := by rw [List.append_assoc, hcs]
      obtain ⟨m, hm, hdir⟩ := ih happ
      exact ⟨m, .link hlook hne hm, hdir⟩

/-- A walk goes on from where its front arrives, with the links that are left. -/
theorem Walks.append (h : fs.Walks k loc as m) :
    ∃ j, ∀ bs l, fs.Walks j m bs l → fs.Walks k loc (as ++ bs) l := by
  induction h with
  | done k loc => exact ⟨k, fun _ _ h => h⟩
  | step hlook _ ih =>
    obtain ⟨j, hj⟩ := ih
    exact ⟨j, fun bs l h => .step hlook (hj bs l h)⟩
  | link hlook hne _ ih =>
    obtain ⟨j, hj⟩ := ih
    refine ⟨j, fun bs l h => .link hlook hne ?_⟩
    have hw := hj bs l h
    rw [List.append_assoc] at hw
    exact hw

theorem Walks.stay (hdir : fs.node l = some .dir) (hbs : ∀ b ∈ bs, b = []) : fs.Walks k l bs l := by
  induction bs with
  | nil => exact .done k l
  | cons b bs ih =>
    obtain ⟨hb, hbs⟩ := List.forall_mem_cons.mp hbs
    exact .step (look_self hdir (.inl hb)) (ih hbs)

theorem resolve_ok {t : Text} :
    fs.resolve t = .ok l ↔ t ≠ [] ∧ fs.Walks fs.maxLinks (startAt fs.cwd t) (components t) l := by
  rw [resolve]
  split
  · rename_i ht
    exact ⟨fun h => (nomatch h), fun h => absurd ht h.1⟩
  · rename_i ht
    rw [walk_eq_ok]
    exact ⟨fun h => ⟨ht, h⟩, fun h => h.2⟩

theorem stat_dir {t : Text} : fs.stat t = .ok .dir ↔ ∃ l, fs.resolve t = .ok l ∧ fs.node l = some .dir := by
  rw [stat]
  cases fs.resolve t with
  | error e => simp
  | ok l =>
    cases hn : fs.node l with
    | none => simp [hn]
    | some n => simp [hn]

theorem stat_root : fs.stat ['/'] = .ok .dir := by
  refine stat_dir.mpr ⟨[], resolve_ok.mpr ⟨by simp, ?_⟩, fs.root⟩
  exact Walks.stay fs.root (by decide)

/-- **What stands before a slash of a text that is there is a directory.** -/
theorem stat_before_slash {p r : Text} (h : fs.stat (p ++ '/' :: r) = .ok .dir) (hp : p ≠ []) :
    fs.stat p = .ok .dir := by
  obtain ⟨l, hl, -⟩ := stat_dir.mp h
  obtain ⟨-, hw⟩ := resolve_ok.mp hl
  have hstart : startAt fs.cwd (p ++ '/' :: r) = startAt fs.cwd p := by
    cases p with
    | nil => exact absurd rfl hp
    | cons c p => rfl
  rw [hstart, components, List.splitOn_append_cons_self] at hw
  obtain ⟨m, hm, hdir⟩ := hw.front (List.splitOn_ne_nil _ _)
  exact stat_dir.mpr ⟨m, resolve_ok.mpr ⟨hp, hm⟩, hdir⟩

end FileSystem

/-! ## Directories added -/

/-- Nothing that was there is gone or different. -/
structure Extends (fs fs' : FileSystem) : Prop where
  cwd : fs'.cwd = fs.cwd
  maxLinks : fs'.maxLinks = fs.maxLinks
  node : ∀ l n, fs.node l = some n → fs'.node l = some n

/-- Nothing is different but new directories, each under a text with `P`. -/
structure Grown (P : Text → Prop) (fs fs' : FileSystem) : Prop where
  cwd : fs'.cwd = fs.cwd
  maxLinks : fs'.maxLinks = fs.maxLinks
  node : ∀ l, fs'.node l = fs.node l ∨
    fs.node l = none ∧ fs'.node l = some .dir ∧ ∃ t, P t ∧ fs'.resolve t = .ok l

section

variable {P : Text → Prop} {fs fs' fs'' : FileSystem} {k : Nat} {loc l : Loc} {name t : Text} {names : List Text}

theorem Extends.look {r : Loc ⊕ Text} (h : Extends fs fs') (hlook : fs.look loc name = .ok r) :
    fs'.look loc name = .ok r := by
  have hdir := FileSystem.look_dir hlook
  rw [FileSystem.look, if_neg (not_not.mpr hdir)] at hlook
  rw [FileSystem.look, if_neg (not_not.mpr (h.node _ _ hdir))]
  split
  · rename_i hname
    rwa [if_pos hname] at hlook
  rename_i hname
  rw [if_neg hname] at hlook
  split
  · rename_i hname
    rwa [if_pos hname] at hlook
  rename_i hname
  rw [if_neg hname] at hlook
  cases hn : fs.node (name :: loc) with
  | none =>
    rw [hn] at hlook
    cases hlook
  | some n =>
    rw [hn] at hlook
    rwa [h.node _ _ hn]

theorem Extends.walks (h : Extends fs fs') (hw : fs.Walks k loc names l) : fs'.Walks k loc names l := by
  induction hw with
  | done k loc => exact .done k loc
  | step hlook _ ih => exact .step (h.look hlook) ih
  | link hlook hne _ ih => exact .link (h.look hlook) hne ih

theorem Extends.resolve (h : Extends fs fs') (hr : fs.resolve t = .ok l) : fs'.resolve t = .ok l := by
  obtain ⟨hne, hw⟩ := FileSystem.resolve_ok.mp hr
  refine FileSystem.resolve_ok.mpr ⟨hne, ?_⟩
  rw [h.maxLinks, h.cwd]
  exact h.walks hw

theorem Grown.extends (h : Grown P fs fs') : Extends fs fs' := by
  refine ⟨h.cwd, h.maxLinks, fun l n hn => ?_⟩
  rcases h.node l with hsame | ⟨hnone, -, -⟩
  · rw [hsame, hn]
  · rw [hnone] at hn
    cases hn

theorem Grown.refl (P : Text → Prop) (fs : FileSystem) : Grown P fs fs := ⟨rfl, rfl, fun _ => .inl rfl⟩

theorem Grown.trans (h : Grown P fs fs') (h' : Grown P fs' fs'') : Grown P fs fs'' := by
  refine ⟨h'.cwd.trans h.cwd, h'.maxLinks.trans h.maxLinks, fun l => ?_⟩
  rcases h'.node l with hsame' | ⟨hnone', hdir', ht'⟩
  · rcases h.node l with hsame | ⟨hnone, hdir, t, ht, hres⟩
    · exact .inl (hsame'.trans hsame)
    · exact .inr ⟨hnone, hsame'.trans hdir, t, ht, h'.extends.resolve hres⟩
  · rcases h.node l with hsame | ⟨-, hdir, -⟩
    · exact .inr ⟨hsame.symm.trans hnone', hdir', ht'⟩
    · rw [hnone'] at hdir
      cases hdir

theorem Grown.mono {Q : Text → Prop} (hPQ : ∀ t, P t → Q t) (h : Grown P fs fs') : Grown Q fs fs' := by
  refine ⟨h.cwd, h.maxLinks, fun l => ?_⟩
  rcases h.node l with hsame | ⟨hnone, hdir, t, ht, hres⟩
  · exact .inl hsame
  · exact .inr ⟨hnone, hdir, t, hPQ t ht, hres⟩

end

/-! ## Making a directory -/

namespace FileSystem

/-- A directory put at a location whose parent is one. -/
def add (fs : FileSystem) {loc : Loc} (hdir : fs.node loc = some .dir) (name : Text) : FileSystem where
  node l := if l = name :: loc then some .dir else fs.node l
  cwd := fs.cwd
  maxLinks := fs.maxLinks
  root := fs.root
  parent name' loc' h := by
    split
    · rfl
    · split at h
      · rename_i hl
        cases hl
        exact hdir
      · exact fs.parent name' loc' h

/-- What `mkdir` answers: slashes at the end are not part of the name, and the last name is not followed. -/
def mkdir (fs : FileSystem) (t : Text) : Except Errno FileSystem :=
  if t = [] then .error .ENOENT
  else match (components t).reverse.dropWhile (· = []) with
    | [] => .error .EEXIST
    | name :: above =>
      match fs.walk fs.maxLinks (startAt fs.cwd t) above.reverse with
      | .error e => .error e
      | .ok loc =>
        if hdir : fs.node loc = some .dir then
          if name = ['.'] ∨ name = ['.', '.'] ∨ (fs.node (name :: loc)).isSome then .error .EEXIST
          else .ok (fs.add hdir name)
        else .error (fs.notDir loc)

end FileSystem

section

variable {P : Text → Prop} {fs fs' : FileSystem} {loc l : Loc} {name t : Text}

/-- A list by its last element that is not blank. -/
theorem eq_append_of_dropWhile {names above : List Text} (h : names.reverse.dropWhile (· = []) = name :: above) :
    ∃ blanks, names = above.reverse ++ name :: blanks ∧ name ≠ [] ∧ ∀ b ∈ blanks, b = [] := by
  have hsplit : names.reverse.takeWhile (· = []) ++ name :: above = names.reverse := by
    rw [← h, List.takeWhile_append_dropWhile]
  refine ⟨(names.reverse.takeWhile (· = [])).reverse, ?_, ?_, ?_⟩
  · have hrev := congrArg List.reverse hsplit
    simpa using hrev.symm
  · have hhead := List.head_dropWhile_not (· = []) (l := names.reverse) (by simp [h])
    simpa [h] using hhead
  · intro b hb
    have hall := List.mem_takeWhile_imp (List.mem_reverse.mp hb)
    simpa using hall

theorem add_extends (hdir : fs.node loc = some .dir) (hfree : fs.node (name :: loc) = none) :
    Extends fs (fs.add hdir name) := by
  refine ⟨rfl, rfl, fun l n hn => ?_⟩
  have hne : l ≠ name :: loc := by
    rintro rfl
    rw [hfree] at hn
    cases hn
  exact (if_neg hne).trans hn

/-- What `mkdir` can answer: a refusal, that a text of slashes is there, or what becomes of the last name
    in the directory before it. -/
theorem mkdir_cases (fs : FileSystem) (t : Text) :
    (∃ e, fs.mkdir t = .error e ∧ e ≠ .EEXIST) ∨
    fs.mkdir t = .error .EEXIST ∧ t ≠ [] ∧ (∀ b ∈ components t, b = []) ∨
    ∃ above name blanks loc, ∃ hdir : fs.node loc = some .dir,
      t ≠ [] ∧ components t = above ++ name :: blanks ∧ name ≠ [] ∧ (∀ b ∈ blanks, b = []) ∧
      fs.Walks fs.maxLinks (startAt fs.cwd t) above loc ∧
      fs.mkdir t = if name = ['.'] ∨ name = ['.', '.'] ∨ (fs.node (name :: loc)).isSome then .error .EEXIST
        else .ok (fs.add hdir name) := by
  by_cases hne : t = []
  · exact .inl ⟨.ENOENT, if_pos hne, fun h => nomatch h⟩
  rw [FileSystem.mkdir, if_neg hne]
  split
  · rename_i hblank
    refine .inr (.inl ⟨rfl, hne, fun b hb => ?_⟩)
    have hb' := List.dropWhile_eq_nil_iff.mp hblank b (List.mem_reverse.mpr hb)
    simpa using hb'
  rename_i name above hlast
  split
  · rename_i e hwalk
    refine .inl ⟨e, rfl, ?_⟩
    rintro rfl
    exact FileSystem.walk_ne_exists hwalk
  rename_i loc hwalk
  split
  · rename_i hdir
    obtain ⟨blanks, hcomp, hname, hblanks⟩ := eq_append_of_dropWhile hlast
    exact .inr (.inr ⟨above.reverse, name, blanks, loc, hdir, hne, hcomp, hname, hblanks,
      FileSystem.walks_of_walk hwalk, rfl⟩)
  · refine .inl ⟨fs.notDir loc, rfl, ?_⟩
    rw [FileSystem.notDir]
    split <;> exact fun h => nomatch h

/-- A text whose last name leads to a directory leads there, slashes at its end or not. -/
theorem resolve_last {above blanks : List Text} (hne : t ≠ []) (hcomp : components t = above ++ name :: blanks)
    (hblanks : ∀ b ∈ blanks, b = []) (hwalk : fs.Walks fs.maxLinks (startAt fs.cwd t) above loc)
    (hlook : fs.look loc name = .ok (.inl l)) (hdir : fs.node l = some .dir) : fs.resolve t = .ok l := by
  obtain ⟨j, hj⟩ := hwalk.append
  rw [FileSystem.resolve_ok, hcomp]
  exact ⟨hne, hj _ _ (.step hlook (.stay hdir hblanks))⟩

/-- **What `mkdir` makes** is one directory where nothing was, and the text leads to it. -/
theorem mkdir_ok (h : fs.mkdir t = .ok fs') :
    ∃ name loc, ∃ hdir : fs.node loc = some .dir,
      fs.node (name :: loc) = none ∧ fs' = fs.add hdir name ∧ fs'.resolve t = .ok (name :: loc) := by
  rcases mkdir_cases fs t with ⟨e, he, -⟩ | ⟨he, -, -⟩ |
    ⟨above, name, blanks, loc, hdir, hne, hcomp, hname, hblanks, hwalk, hmk⟩
  · rw [he] at h
    cases h
  · rw [he] at h
    cases h
  rw [hmk] at h
  split at h
  · cases h
  rename_i hfresh
  cases h
  rw [not_or, not_or, Option.not_isSome_iff_eq_none] at hfresh
  obtain ⟨hdot, hdots, hfree⟩ := hfresh
  have hext := add_extends hdir hfree
  have hnew : (fs.add hdir name).node (name :: loc) = some .dir := if_pos rfl
  have hlook : (fs.add hdir name).look loc name = .ok (.inl (name :: loc)) := by
    rw [FileSystem.look, if_neg (not_not.mpr (hext.node _ _ hdir)), if_neg (not_or.mpr ⟨hname, hdot⟩), if_neg hdots,
      hnew]
  exact ⟨name, loc, hdir, hfree, rfl, resolve_last hne hcomp hblanks (hext.walks hwalk) hlook hnew⟩

theorem mkdir_grown (hP : P t) (h : fs.mkdir t = .ok fs') : Grown P fs fs' := by
  obtain ⟨name, loc, hdir, hfree, rfl, hres⟩ := mkdir_ok h
  refine ⟨rfl, rfl, fun l => ?_⟩
  by_cases hl : l = name :: loc
  · subst hl
    exact .inr ⟨hfree, if_pos rfl, t, hP, hres⟩
  · exact .inl (if_neg hl)

theorem mkdir_stat (h : fs.mkdir t = .ok fs') : fs'.stat t = .ok .dir := by
  obtain ⟨name, loc, hdir, -, rfl, hres⟩ := mkdir_ok h
  exact FileSystem.stat_dir.mpr ⟨name :: loc, hres, if_pos rfl⟩

end

/-! ## Trees of directories alone -/

section

variable {P : Text → Prop} {fs fs' : FileSystem} {loc : Loc} {t : Text}

/-- There is no file and no link. -/
def DirsOnly (fs : FileSystem) : Prop := ∀ l n, fs.node l = some n → n = .dir

theorem Grown.dirsOnly (h : Grown P fs fs') (hdirs : DirsOnly fs) : DirsOnly fs' := by
  intro l n hn
  rcases h.node l with hsame | ⟨-, hdir, -⟩
  · exact hdirs l n (hsame ▸ hn)
  · rw [hdir] at hn
    cases hn
    rfl

theorem DirsOnly.stat (hdirs : DirsOnly fs) {n : Node} (h : fs.stat t = .ok n) : n = .dir := by
  rw [FileSystem.stat] at h
  split at h
  · cases h
  split at h
  · cases h
  · rename_i hn
    cases h
    exact hdirs _ _ hn

/-- Among directories a name that is there leads to one. -/
theorem DirsOnly.look {name : Text} (hdirs : DirsOnly fs) (hdir : fs.node loc = some .dir)
    (hthere : name = ['.'] ∨ name = ['.', '.'] ∨ (fs.node (name :: loc)).isSome) :
    ∃ m, fs.look loc name = .ok (.inl m) ∧ fs.node m = some .dir := by
  have hlook : ∃ m, fs.look loc name = .ok (.inl m) := by
    rw [FileSystem.look, if_neg (not_not.mpr hdir)]
    by_cases hdot : name = [] ∨ name = ['.']
    · exact ⟨loc, if_pos hdot⟩
    by_cases hdots : name = ['.', '.']
    · exact ⟨loc.tail, by rw [if_neg hdot, if_pos hdots]⟩
    rw [if_neg hdot, if_neg hdots]
    obtain ⟨n, hn⟩ := Option.isSome_iff_exists.mp ((hthere.resolve_left fun h => hdot (.inr h)).resolve_left hdots)
    rw [hn, hdirs _ n hn]
    exact ⟨name :: loc, rfl⟩
  obtain ⟨m, hm⟩ := hlook
  rcases FileSystem.look_node hm with hmdir | hfile
  · exact ⟨m, hm, hmdir⟩
  · cases hdirs m .file hfile

/-- **Among directories alone**, `mkdir` tells that something is there only where a directory is. -/
theorem DirsOnly.mkdir_exists (hdirs : DirsOnly fs) (h : fs.mkdir t = .error .EEXIST) : fs.stat t = .ok .dir := by
  rcases mkdir_cases fs t with ⟨e, he, hother⟩ | ⟨-, hne, hblank⟩ |
    ⟨above, name, blanks, loc, hdir, hne, hcomp, -, hblanks, hwalk, hmk⟩
  · rw [he] at h
    cases h
    exact absurd rfl hother
  · refine FileSystem.stat_dir.mpr ⟨[], FileSystem.resolve_ok.mpr ⟨hne, ?_⟩, fs.root⟩
    rw [startAt_of_blank hne hblank]
    exact .stay fs.root hblank
  · rw [hmk] at h
    split at h
    · rename_i hthere
      obtain ⟨m, hm, hmdir⟩ := hdirs.look hdir hthere
      exact FileSystem.stat_dir.mpr ⟨m, resolve_last hne hcomp hblanks hwalk hm hmdir, hmdir⟩
    · cases h

end

/-! ## Making what is missing -/

section

variable {α : Type*} {P : Text → Prop} {fs fs' : FileSystem} {t : Text}

/-- A call of `mkdir`, which may be made to fail. -/
def mkdirOr (fault : Option Errno) (fs : FileSystem) (t : Text) : Except Errno FileSystem :=
  match fault with
  | some e => .error e
  | none => fs.mkdir t

/-- A directory made for a text that leads nowhere, where it is let pass that something is there
    already; the error is the tree as it was. -/
def ensure (fault : Option Errno) (t : Text) (fs : FileSystem) : Except FileSystem FileSystem :=
  match fs.stat t with
  | .ok _ => .ok fs
  | .error _ =>
    match mkdirOr fault fs t with
    | .ok fs' => .ok fs'
    | .error e => if e = .EEXIST then .ok fs else .error fs

/-- The same for one text after another, up to the first that is refused. -/
def ensureEach (fault : α → Option Errno) (text : α → Text) : List α → FileSystem → Except FileSystem FileSystem
  | [], fs => .ok fs
  | a :: as, fs => (ensure (fault a) (text a) fs).bind (ensureEach fault text as)

/-- The tree that is left, made or refused. -/
def left : Except FileSystem FileSystem → FileSystem
  | .ok fs => fs
  | .error fs => fs

/-- A directory answers to the text, or nothing does and `mkdir` is not told that something is there. -/
def Makeable (fault : Option Errno) (fs : FileSystem) (t : Text) : Prop :=
  fs.stat t = .ok .dir ∨ (∃ e, fs.stat t = .error e) ∧ mkdirOr fault fs t ≠ .error .EEXIST

variable {fault : Option Errno} {faults : α → Option Errno} {text : α → Text}

theorem mkdirOr_ok (h : mkdirOr fault fs t = .ok fs') : fs.mkdir t = .ok fs' := by
  cases fault with
  | some e => cases h
  | none => exact h

theorem ensure_of_stat {n : Node} (h : fs.stat t = .ok n) : ensure fault t fs = .ok fs := by
  rw [ensure, h]

theorem ensure_grown (hP : P t) : Grown P fs (left (ensure fault t fs)) := by
  rw [ensure]
  split
  · exact .refl P fs
  split
  · rename_i hmk
    exact mkdir_grown hP (mkdirOr_ok hmk)
  · split
    · exact .refl P fs
    · exact .refl P fs

/-- **When making sure of a text makes a directory of it**: a file or a dangling link in its place is
    let pass too. -/
theorem ensure_dir_iff :
    (∀ fs', ensure fault t fs = .ok fs' → fs'.stat t = .ok .dir) ↔ Makeable fault fs t := by
  rw [ensure, Makeable]
  cases hstat : fs.stat t with
  | ok n => simp [hstat]
  | error e =>
    cases hmk : mkdirOr fault fs t with
    | ok fs' => simp [mkdir_stat (mkdirOr_ok hmk)]
    | error e' =>
      by_cases he : e' = .EEXIST
      · simp [he, hstat]
      · simp [he]

/-- Among directories alone a call that is not made to say otherwise can make its directory. -/
theorem DirsOnly.makeable (hdirs : DirsOnly fs) (hfault : fault ≠ some .EEXIST) : Makeable fault fs t := by
  cases hstat : fs.stat t with
  | ok n => exact .inl (hdirs.stat hstat ▸ hstat)
  | error e =>
    refine .inr ⟨⟨e, hstat⟩, fun h => ?_⟩
    cases fault with
    | some e' =>
      cases h
      exact hfault rfl
    | none =>
      rw [hdirs.mkdir_exists h] at hstat
      cases hstat

theorem ensureEach_singleton (a : α) (fs : FileSystem) :
    ensureEach faults text [a] fs = ensure (faults a) (text a) fs := by
  rw [ensureEach]
  cases ensure (faults a) (text a) fs <;> rfl

theorem ensureEach_append (as bs : List α) (fs : FileSystem) :
    ensureEach faults text (as ++ bs) fs = (ensureEach faults text as fs).bind (ensureEach faults text bs) := by
  induction as generalizing fs with
  | nil => rfl
  | cons a as ih =>
    rw [List.cons_append, ensureEach, ensureEach]
    cases ensure (faults a) (text a) fs with
    | ok fs' => exact ih fs'
    | error fs' => rfl

theorem ensureEach_grown {as : List α} (hP : ∀ a ∈ as, P (text a)) (fs : FileSystem) :
    Grown P fs (left (ensureEach faults text as fs)) := by
  induction as generalizing fs with
  | nil => exact .refl P fs
  | cons a as ih =>
    obtain ⟨ha, has⟩ := List.forall_mem_cons.mp hP
    have hstep : Grown P fs (left (ensure (faults a) (text a) fs)) := ensure_grown ha
    rw [ensureEach]
    cases hen : ensure (faults a) (text a) fs with
    | ok fs' =>
      rw [hen] at hstep
      exact hstep.trans (ih has fs')
    | error fs' =>
      rw [hen] at hstep
      exact hstep

end

end FileTree

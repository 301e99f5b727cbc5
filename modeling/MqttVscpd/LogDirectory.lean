/-
`createDirectoryRecursive` of `mqttvscpd.cpp`, and what `main` does with it
before it opens the log file: which directories are made, and when a path that
it says is made is a directory.
-/
import MqttVscpd.Lib.FileTree

namespace MqttVscpd.LogDirectory

open FileTree

/-! ## The code -/

/-- The text a C function sees: what stands before the first NUL. -/
def c_str (s : Text) : Text := s.takeWhile (· ≠ '\x00')

/-- The first `c` at `pos` or after it; `none` is `npos`. -/
def find (s : Text) (c : Char) (pos : Nat) : Option Nat := ((s.drop pos).findIdx? (· = c)).map (pos + ·)

/-- The last `c`. -/
def find_last_of (s : Text) (c : Char) : Option Nat := (s.reverse.findIdx? (· = c)).map (s.length - 1 - ·)

/-- The part of the path a pass is about. -/
def sub (path : Text) : Option Nat → Text
  | none => path
  | some pos => path.take pos

/-- The loop from `pos` on, with a bound on its passes; `fault` says which calls of `mkdir` are made to fail. -/
def scan (path : Text) (fault : Text → Option Errno) : Nat → Option Nat → FileSystem → Option (Bool × FileSystem)
  | _, none, fs => some (true, fs)
  | 0, some _, _ => none
  | n + 1, some pos, fs =>
    let pos := find path '/' (pos + 1)
    let sub := sub path pos
    if sub = [] ∨ sub = ['/'] then scan path fault n pos fs
    else match fs.stat (c_str sub) with
      | .ok _ => scan path fault n pos fs
      | .error _ =>
        match mkdirOr (fault sub) fs (c_str sub) with
        | .ok fs' => scan path fault n pos fs'
        | .error errno => if errno = .EEXIST then scan path fault n pos fs else some (false, fs)

def createDirectoryRecursive (path : Text) (fault : Text → Option Errno) (n : Nat) (fs : FileSystem) :
    Option (Bool × FileSystem) :=
  if path = [] then some (false, fs) else scan path fault n (some 0) fs

/-- What `main` does for the log file's directory: whether it prints that it failed, and the tree it
    leaves. -/
def makeLogDirectory (vscp_fileExists : FileSystem → Text → Bool) (m_path_to_log_file : Text)
    (fault : Text → Option Errno) (n : Nat) (fs : FileSystem) : Option (Bool × FileSystem) :=
  match find_last_of m_path_to_log_file '/' with
  | none => some (false, fs)
  | some slashPos =>
    let logDir := m_path_to_log_file.take slashPos
    if logDir ≠ [] ∧ vscp_fileExists fs (c_str logDir) = false then
      (createDirectoryRecursive logDir fault n fs).map fun (made, fs') => (!made, fs')
    else some (false, fs)

/-! ## The loop as one text after another -/

/-- The texts that end before a slash of `rest`, after `done`. -/
def cuts : Text → Text → List Text
  | _, [] => []
  | done, c :: rest => if c = '/' then done :: cuts (done ++ [c]) rest else cuts (done ++ [c]) rest

/-- The prefixes of a path that end before a slash, the empty one apart. -/
def fronts : Text → List Text
  | [] => []
  | c :: rest => cuts [c] rest

def outcome : Except FileSystem FileSystem → Bool × FileSystem
  | .ok fs => (true, fs)
  | .error fs => (false, fs)

variable {path done rest : Text} {fault : Text → Option Errno} {fs fs' : FileSystem} {n pos : Nat}

theorem cuts_eq_nil (h : '/' ∉ rest) : cuts done rest = [] := by
  induction rest generalizing done with
  | nil => rfl
  | cons c rest ih =>
    rw [List.mem_cons, not_or] at h
    rw [cuts, if_neg (Ne.symm h.1)]
    exact ih h.2

theorem cuts_append {mid : Text} (h : '/' ∉ mid) (rest : Text) :
    cuts done (mid ++ '/' :: rest) = (done ++ mid) :: cuts (done ++ mid ++ ['/']) rest := by
  induction mid generalizing done with
  | nil => rw [List.nil_append, cuts, if_pos rfl, List.append_nil]
  | cons c mid ih =>
    rw [List.mem_cons, not_or] at h
    rw [List.cons_append, cuts, if_neg (Ne.symm h.1), ih h.2]
    simp only [List.append_assoc, List.singleton_append]

theorem mem_cuts {p : Text} (h : p ∈ cuts done rest) : ∃ mid r, p = done ++ mid ∧ rest = mid ++ '/' :: r := by
  induction rest generalizing done with
  | nil => cases h
  | cons c rest ih =>
    have hgo (h : p ∈ cuts (done ++ [c]) rest) : ∃ mid r, p = done ++ mid ∧ c :: rest = mid ++ '/' :: r := by
      obtain ⟨mid, r, hp, hrest⟩ := ih h
      refine ⟨c :: mid, r, ?_, ?_⟩
      · rw [hp, List.append_assoc, List.singleton_append]
      · rw [hrest, List.cons_append]
    rw [cuts] at h
    split at h
    · rename_i hc
      rcases List.mem_cons.mp h with rfl | h
      · exact ⟨[], rest, (List.append_nil _).symm, by rw [hc, List.nil_append]⟩
      · exact hgo h
    · exact hgo h

theorem prefix_of_mem_fronts {p : Text} (h : p ∈ fronts path) : p <+: path := by
  cases path with
  | nil => cases h
  | cons c rest =>
    obtain ⟨mid, r, hp, hrest⟩ := mem_cuts h
    refine ⟨'/' :: r, ?_⟩
    rw [hp, hrest, List.append_assoc, List.singleton_append]

theorem find_append (done rest : Text) :
    find (done ++ rest) '/' done.length = (rest.findIdx? (· = '/')).map (done.length + ·) := by
  rw [find, List.drop_left]

theorem findIdx?_slash {s : Text} (h : '/' ∉ s) : s.findIdx? (· = '/') = none := by
  rw [List.findIdx?_eq_none_iff]
  intro c hc
  have hne : c ≠ '/' := fun he => h (he ▸ hc)
  simpa using hne

theorem find_none (h : '/' ∉ rest) : find (done ++ rest) '/' done.length = none := by
  rw [find_append, findIdx?_slash h]
  rfl

theorem find_some {mid : Text} (h : '/' ∉ mid) (rest : Text) :
    find (done ++ (mid ++ '/' :: rest)) '/' done.length = some (done ++ mid).length := by
  rw [find_append, List.findIdx?_append, findIdx?_slash h, List.findIdx?_cons]
  simp

/-- One pass makes sure of its part of the path. -/
theorem scan_pass (hne : sub path (find path '/' (pos + 1)) ≠ []) :
    scan path fault (n + 1) (some pos) fs =
      match ensure (fault (sub path (find path '/' (pos + 1)))) (c_str (sub path (find path '/' (pos + 1)))) fs with
      | .ok fs' => scan path fault n (find path '/' (pos + 1)) fs'
      | .error fs' => some (false, fs') := by
  rw [scan]
  generalize find path '/' (pos + 1) = next at hne ⊢
  generalize sub path next = sub at hne ⊢
  by_cases hroot : sub = ['/']
  · subst hroot
    have hstat : fs.stat (c_str ['/']) = .ok .dir := FileSystem.stat_root
    rw [ensure_of_stat hstat]
    exact if_pos (.inr rfl)
  · simp only [hne, hroot, or_self, if_false]
    rw [ensure]
    cases fs.stat (c_str sub) with
    | ok node => rfl
    | error e =>
      cases mkdirOr (fault sub) fs (c_str sub) with
      | ok fs' => rfl
      | error errno =>
        by_cases he : errno = .EEXIST
        · simp only [he, if_true]
        · simp only [he, if_false]

/-- **The loop ends**, and makes sure of the texts before the slashes that are left and of the path. -/
theorem scan_eq (hpath : path = done ++ rest) (hpos : done.length = pos + 1) (hn : rest.length < n) :
    scan path fault n (some pos) fs = some (outcome (ensureEach fault c_str (cuts done rest ++ [path]) fs)) := by
  induction n generalizing done rest pos fs with
  | zero => omega
  | succ n ih =>
    have hdone : done ≠ [] := by
      rintro rfl
      cases hpos
    by_cases hmem : '/' ∈ rest
    · obtain ⟨mid, r, rfl, hmid⟩ := List.eq_append_cons_of_mem hmem
      have hfind : find path '/' (pos + 1) = some (done ++ mid).length := by
        rw [hpath, ← hpos]
        exact find_some hmid r
      have hsub : sub path (some (done ++ mid).length) = done ++ mid := by
        rw [sub, hpath, ← List.append_assoc, List.take_left]
      have hne : done ++ mid ≠ [] := fun h => hdone (List.append_eq_nil_iff.mp h).1
      rw [scan_pass (by rw [hfind, hsub]; exact hne), hfind, hsub, cuts_append hmid, List.cons_append, ensureEach]
      cases ensure (fault (done ++ mid)) (c_str (done ++ mid)) fs with
      | error fs' => rfl
      | ok fs' =>
        have hpath' : path = (done ++ mid ++ ['/']) ++ r := by
          rw [hpath]
          simp only [List.append_assoc, List.singleton_append]
        have hlen : r.length < n := by
          rw [List.length_append, List.length_cons] at hn
          omega
        exact ih hpath' List.length_append hlen
    · have hfind : find path '/' (pos + 1) = none := by
        rw [hpath, ← hpos]
        exact find_none hmem
      have hne : path ≠ [] := by
        rw [hpath]
        exact fun h => hdone (List.append_eq_nil_iff.mp h).1
      rw [scan_pass (by rw [hfind]; exact hne), hfind, sub, cuts_eq_nil hmem, List.nil_append, ensureEach]
      cases ensure (fault path) (c_str path) fs with
      | error fs' => rfl
      | ok fs' => cases n <;> rfl

theorem createDirectoryRecursive_eq (hne : path ≠ []) (hn : path.length ≤ n) (fs : FileSystem) :
    createDirectoryRecursive path fault n fs =
      some (outcome (ensureEach fault c_str (fronts path ++ [path]) fs)) := by
  rw [createDirectoryRecursive, if_neg hne]
  cases path with
  | nil => exact absurd rfl hne
  | cons c rest => exact scan_eq (List.singleton_append).symm rfl hn

-- repeated slashes have a turn each, the leading one has none
example : fronts ['/', 'a', '/', '/', 'b'] = [['/', 'a'], ['/', 'a', '/']] := rfl

/-! ## What it makes -/

/-- A directory answers to the text; what stands before a leading slash is the root. -/
def IsDirectory (fs : FileSystem) (p : Text) : Prop := fs.stat (if p = [] then ['/'] else c_str p) = .ok .dir

/-- The path and what stands before each of its slashes are directories. -/
def PathIsThere (path : Text) (fs : FileSystem) : Prop :=
  ∀ p, p = path ∨ (∃ r, path = p ++ '/' :: r) → IsDirectory fs p

/-- When the turn of the whole path comes, a directory answers to it, or nothing does and `mkdir` is not
    told that something is there. -/
def EndsMakeable (path : Text) (fault : Text → Option Errno) (fs : FileSystem) : Prop :=
  path ≠ [] → ∀ fs', ensureEach fault c_str (fronts path) fs = .ok fs' → Makeable (fault path) fs' (c_str path)

theorem c_str_front (s : Text) : c_str s <+: s := List.takeWhile_prefix _

/-- What the C function sees of a path that is a directory shows it the directories before the slashes. -/
theorem stat_front {p r : Text} (h : fs.stat (c_str (p ++ '/' :: r)) = .ok .dir) (hp : p ≠ []) :
    fs.stat (c_str p) = .ok .dir := by
  rw [c_str, List.takeWhile_append] at h
  split at h
  · rename_i hlen
    have hself : c_str p = p := (c_str_front p).eq_of_length hlen
    rw [hself]
    rw [List.takeWhile_cons_of_pos (by decide)] at h
    exact FileSystem.stat_before_slash h hp
  · exact h

theorem pathIsThere_iff (hne : path ≠ []) : PathIsThere path fs ↔ fs.stat (c_str path) = .ok .dir := by
  constructor
  · intro h
    have hpath := h path (.inl rfl)
    rwa [IsDirectory, if_neg hne] at hpath
  · rintro hdir p (rfl | ⟨r, rfl⟩)
    · rwa [IsDirectory, if_neg hne]
    · rw [IsDirectory]
      by_cases hp : p = []
      · rw [if_pos hp]
        exact FileSystem.stat_root
      · rw [if_neg hp]
        exact stat_front hdir hp

/-- Each text made sure of is a prefix of the path. -/
theorem made_front {p : Text} (h : p ∈ fronts path ++ [path]) : c_str p <+: path := by
  rcases List.mem_append.mp h with h | h
  · exact (c_str_front p).trans (prefix_of_mem_fronts h)
  · rw [List.mem_singleton.mp h]
    exact c_str_front path

theorem outcome_snd (r : Except FileSystem FileSystem) : (outcome r).2 = left r := by cases r <;> rfl

/-- Making sure of the path, after what is before its slashes, makes it a directory just when it could. -/
theorem ensureEach_path (hne : path ≠ []) :
    (∀ fs', ensureEach fault c_str (fronts path ++ [path]) fs = .ok fs' → PathIsThere path fs') ↔
      EndsMakeable path fault fs := by
  simp only [pathIsThere_iff hne]
  rw [ensureEach_append, EndsMakeable]
  cases ensureEach fault c_str (fronts path) fs with
  | error fs' => exact ⟨fun _ _ _ h => (nomatch h), fun _ _ h => (nomatch h)⟩
  | ok fs' =>
    rw [Except.bind, ensureEach_singleton, ensure_dir_iff]
    refine ⟨fun h _ fs'' he => ?_, fun h => h hne fs' rfl⟩
    cases he
    exact h

/-- **Among directories alone**, what it says is made is there, whatever else the calls fail with. -/
theorem endsMakeable_of_dirsOnly (hdirs : DirsOnly fs) (hfault : fault path ≠ some .EEXIST) :
    EndsMakeable path fault fs := by
  intro _ fs' hfs'
  have hpre : ∀ p ∈ fronts path, c_str p <+: path := fun p hp => made_front (List.mem_append_left [path] hp)
  have hgrown : Grown (· <+: path) fs (left (ensureEach fault c_str (fronts path) fs)) := ensureEach_grown hpre fs
  rw [hfs'] at hgrown
  exact (hgrown.dirsOnly hdirs).makeable hfault

theorem outcome_made {r : Except FileSystem FileSystem} {P : FileSystem → Prop} :
    ((outcome r).1 = true → P (outcome r).2) ↔ ∀ fs', r = .ok fs' → P fs' := by
  cases r with
  | error fs' => simp [outcome]
  | ok fs' => simp [outcome]

/-- What a call for a path that is not empty comes to. -/
theorem createDirectoryRecursive_result (hne : path ≠ []) (fault : Text → Option Errno) (fs : FileSystem) :
    ∃ r, (∀ n, path.length ≤ n → createDirectoryRecursive path fault n fs = some (outcome r)) ∧
      Grown (· <+: path) fs (outcome r).2 ∧
      (((outcome r).1 = true → PathIsThere path (outcome r).2) ↔ EndsMakeable path fault fs) := by
  refine ⟨ensureEach fault c_str (fronts path ++ [path]) fs, fun n hn => createDirectoryRecursive_eq hne hn fs, ?_, ?_⟩
  · rw [outcome_snd]
    exact ensureEach_grown (fun _ => made_front) fs
  · rw [outcome_made]
    exact ensureEach_path hne

/-- **`createDirectoryRecursive`**: it ends for every path, whatever the tree and the calls of `mkdir`
    that fail; it changes nothing but to make directories at prefixes of the path; and what it says is
    made is there just when the whole path could be made in its turn. -/
theorem createDirectoryRecursive_spec (path : Text) (fault : Text → Option Errno) (fs : FileSystem) :
    ∃ made fs', (∀ n, path.length ≤ n → createDirectoryRecursive path fault n fs = some (made, fs')) ∧
      Grown (· <+: path) fs fs' ∧ ((made = true → PathIsThere path fs') ↔ EndsMakeable path fault fs) := by
  by_cases hne : path = []
  · refine ⟨false, fs, fun n _ => if_pos hne, .refl _ fs, ?_⟩
    exact ⟨fun _ h => absurd hne h, fun _ h => nomatch h⟩
  · obtain ⟨r, hrun, hgrown, hiff⟩ := createDirectoryRecursive_result hne fault fs
    exact ⟨(outcome r).1, (outcome r).2, hrun, hgrown, hiff⟩

/-- A tree whose root has one entry. -/
def oneEntry (name : Text) (n : Node) : FileSystem where
  node l := if l = [] then some .dir else if l = [name] then some n else none
  cwd := []
  maxLinks := 40
  root := rfl
  parent name' loc h := by
    rw [if_neg (List.cons_ne_nil name' loc)] at h
    split at h
    · rename_i hl
      cases hl
      rfl
    · cases h

/-- A file, or a link to nothing, that stands where the directory should be is taken for it. -/
theorem createDirectoryRecursive_file_or_link :
    (createDirectoryRecursive ['x'] (fun _ => none) 1 (oneEntry ['x'] .file) = some (true, oneEntry ['x'] .file) ∧
      ¬ PathIsThere ['x'] (oneEntry ['x'] .file)) ∧
    createDirectoryRecursive ['x'] (fun _ => none) 1 (oneEntry ['x'] (.link ['y'])) =
        some (true, oneEntry ['x'] (.link ['y'])) ∧
      ¬ PathIsThere ['x'] (oneEntry ['x'] (.link ['y'])) := by
  refine ⟨⟨rfl, fun h => ?_⟩, rfl, fun h => ?_⟩
  · have hdir : (oneEntry ['x'] .file).stat ['x'] = .ok .dir := h ['x'] (.inl rfl)
    exact absurd hdir (by decide)
  · have hdir : (oneEntry ['x'] (.link ['y'])).stat ['x'] = .ok .dir := h ['x'] (.inl rfl)
    exact absurd hdir (by decide)

/-! ## The log file's directory -/

/-- **The log directory**: `main` gets past it, makes nothing but directories on the way to the log file,
    and where it called for the directory and printed nothing, the directory is there just when it
    could be made in its turn. -/
theorem makeLogDirectory_spec (vscp_fileExists : FileSystem → Text → Bool) (file : Text)
    (fault : Text → Option Errno) (fs : FileSystem) :
    ∃ failed fs', (∀ n, file.length ≤ n → makeLogDirectory vscp_fileExists file fault n fs = some (failed, fs')) ∧
      Grown (· <+: file) fs fs' ∧
      ∀ slashPos logDir, find_last_of file '/' = some slashPos → logDir = file.take slashPos → logDir ≠ [] →
        vscp_fileExists fs (c_str logDir) = false →
        ((failed = false → PathIsThere logDir fs') ↔ EndsMakeable logDir fault fs) := by
  cases hlast : find_last_of file '/' with
  | none =>
    refine ⟨false, fs, fun n _ => ?_, .refl _ fs, fun _ _ h => nomatch h⟩
    rw [makeLogDirectory, hlast]
  | some slashPos =>
    by_cases hcall : file.take slashPos ≠ [] ∧ vscp_fileExists fs (c_str (file.take slashPos)) = false
    · obtain ⟨r, hrun, hgrown, hiff⟩ := createDirectoryRecursive_result hcall.1 fault fs
      have hprefix : file.take slashPos <+: file := List.take_prefix slashPos file
      refine ⟨!(outcome r).1, (outcome r).2, fun n hn => ?_, hgrown.mono fun t ht => ht.trans hprefix, ?_⟩
      · have hlen : (file.take slashPos).length ≤ n := (List.length_take_le' slashPos file).trans hn
        rw [makeLogDirectory, hlast]
        simp only [hcall, ne_eq, not_false_eq_true, and_self, if_true, hrun n hlen, Option.map_some]
      · rintro _ logDir ⟨⟩ rfl _ _
        rw [Bool.not_eq_false', hiff]
    · refine ⟨false, fs, fun n _ => ?_, .refl _ fs, ?_⟩
      · rw [makeLogDirectory, hlast]
        exact if_neg hcall
      · rintro _ logDir ⟨⟩ rfl hne hmissing
        exact absurd ⟨hne, hmissing⟩ hcall

end MqttVscpd.LogDirectory

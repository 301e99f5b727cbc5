/-
The command line of the daemon: what `main` makes of its arguments, and how the
program ends. The options are read exactly when the arguments are of their
grammar, and then the last `-c` and `-r` count, and every `-k` (`options_read_iff`).
The pid file that a daemon writes is taken away where it fails, and stays where it
ends well: `main` then unlinks another path (`pid_file_left_iff`).
-/
import MqttVscpd.EncryptionKey
import MqttVscpd.Lib.Getopt

namespace MqttVscpd.CommandLine

open Getopt (Form Item Ends scan)

/-! ## The options -/

/-- `"d:c:r:k:hgsv"` -/
def optstring : Getopt.Spec Char where
  dash := '-'
  kind c :=
    if c ∈ ['d', 'c', 'r', 'k'] then some .arg
    else if c ∈ ['h', 'g', 's', 'v'] then some .flag
    else none
  kind_dash := rfl

/-- What the options set. -/
structure Settings where
  strcfgfile : String := "/etc/vscp/mqttvscpd.json"
  rootFolder : String := "/var/lib/vscp/mqttvscpd/"
  /-- `__vscp_key` -/
  vscpKey : Vector UInt8 32 := defaultKey
  /-- `gbDontRunAsDaemon` -/
  dontRunAsDaemon : Bool := false

/-- The exits in the `switch`. -/
inductive Exit where
  | copyleft
  | version
  | help
  deriving DecidableEq

def Exit.status : Exit → Int
  | .copyleft | .version => 0
  | .help => -1

/-- The `switch` on what `getopt` returns. -/
def option (env : Environment) (s : Settings) : Item Char → Except Exit Settings
  | .flag 's' => .ok { s with dontRunAsDaemon := true }
  | .arg 'c' optarg => .ok { s with strcfgfile := String.ofList optarg }
  | .arg 'd' _ => .ok s
  | .arg 'r' optarg => .ok { s with rootFolder := String.ofList optarg }
  | .arg 'k' optarg => .ok { s with vscpKey := writeKey s.vscpKey (env.hexStr2ByteArray (String.ofList optarg)) }
  | .flag 'g' => .error .copyleft
  | .flag 'v' => .error .version
  -- `default:` falls through to `case 'h':`.
  | _ => .error .help

/-- The option loop over the arguments after the program's name. -/
def readOptions (env : Environment) (argv : List String) : Except Exit Settings :=
  (scan optstring (argv.map String.toList)).foldlM (option env) {}

/-! ## What the options say -/

/-- The arguments given to an option, first to last. -/
def optargs (c : Char) (items : List (Item Char)) : List String :=
  items.filterMap fun
    | .arg c' a => if c' = c then some (String.ofList a) else none
    | _ => none

/-- Settings as a list of options changes them. -/
def Settings.given (env : Environment) (s : Settings) (items : List (Item Char)) : Settings where
  strcfgfile := (optargs 'c' items).getLast?.getD s.strcfgfile
  rootFolder := (optargs 'r' items).getLast?.getD s.rootFolder
  vscpKey := (optargs 'k' items).foldl (fun key optarg => writeKey key (env.hexStr2ByteArray optarg)) s.vscpKey
  dontRunAsDaemon := s.dontRunAsDaemon || items.contains (.flag 's')

/-- The options the loop goes on after. -/
def Stays (i : Item Char) : Prop := i = .flag 's' ∨ ∃ c a, c ∈ ['d', 'c', 'r', 'k'] ∧ i = .arg c a

variable {env : Environment} {s t : Settings} {i : Item Char} {items : List (Item Char)}

theorem stays_of_ok (h : option env s i = .ok t) : Stays i := by
  unfold option at h
  split at h
  · exact .inl rfl
  all_goals first | exact .inr ⟨_, _, by simp, rfl⟩ | cases h

theorem getLast?_cons_getD (x y : String) (xs : List String) : (x :: xs).getLast?.getD y = xs.getLast?.getD x := by
  cases xs with
  | nil => rfl
  | cons z zs => rw [List.getLast?_cons_cons, List.getLast?_eq_some_getLast (by simp)]; rfl

/-- Reading one more option first. -/
theorem option_of_stays (h : Stays i) (env : Environment) (s : Settings) :
    ∃ t, option env s i = .ok t ∧ ∀ items, t.given env items = s.given env (i :: items) := by
  rcases h with rfl | ⟨c, a, hc, rfl⟩
  · exact ⟨_, rfl, fun items => by simp [Settings.given, optargs]⟩
  · simp only [List.mem_cons, List.not_mem_nil, or_false] at hc
    rcases hc with rfl | rfl | rfl | rfl
    · exact ⟨_, rfl, fun items => by simp [Settings.given, optargs]⟩
    · exact ⟨_, rfl, fun items => by simp [Settings.given, optargs, getLast?_cons_getD]⟩
    · exact ⟨_, rfl, fun items => by simp [Settings.given, optargs, getLast?_cons_getD]⟩
    · exact ⟨_, rfl, fun items => by simp [Settings.given, optargs]⟩

theorem given_nil (env : Environment) (s : Settings) : s.given env [] = s := by
  simp [Settings.given, optargs]

/-- The loop runs to its end exactly over options it goes on after. -/
theorem foldlM_option_iff : items.foldlM (option env) s = .ok t ↔ (∀ i ∈ items, Stays i) ∧ t = s.given env items := by
  induction items generalizing s with
  | nil => simp [given_nil, pure, Except.pure, eq_comm]
  | cons i items ih =>
    rw [List.foldlM_cons]
    constructor
    · intro h
      cases hi : option env s i with
      | error e => simp [hi, bind, Except.bind] at h
      | ok s₁ =>
        have hstays := stays_of_ok hi
        obtain ⟨t₁, ht₁, hgiven⟩ := option_of_stays hstays env s
        obtain rfl : t₁ = s₁ := by simpa [hi] using ht₁.symm
        obtain ⟨hall, rfl⟩ := ih.mp (by simpa [hi, bind, Except.bind] using h)
        refine ⟨fun j hj => ?_, hgiven items⟩
        rcases List.mem_cons.mp hj with rfl | hj
        · exact hstays
        · exact hall j hj
    · intro h
      obtain ⟨hall, rfl⟩ := h
      obtain ⟨t₁, ht₁, hgiven⟩ := option_of_stays (hall i (by simp)) env s
      rw [ht₁]
      exact ih.mpr ⟨fun j hj => hall j (by simp [hj]), (hgiven items).symm⟩

/-! ## The grammar of the arguments -/

/-- Words of the daemon's options, none of them `-h`, `-g` or `-v`. -/
def Form.Served (f : Form Char) : Prop := f.Ok optstring ∧ ∀ c ∈ ['h', 'g', 'v'], .flag c ∉ f.items

theorem kind_flag {c : Char} (h : optstring.kind c = some .flag) : c ∈ ['h', 'g', 's', 'v'] := by
  simp only [optstring] at h
  split at h
  · cases h
  · split at h
    · next hc => exact hc
    · cases h

theorem kind_arg {c : Char} (h : optstring.kind c = some .arg) : c ∈ ['d', 'c', 'r', 'k'] := by
  simp only [optstring] at h
  split at h
  · next hc => exact hc
  · split at h <;> cases h

theorem stays_of_served {f : Form Char} (h : Form.Served f) (hi : i ∈ f.items) : Stays i := by
  obtain ⟨hok, hserved⟩ := h
  have hflags : ∀ fs : List Char, Getopt.Flags optstring fs → (∀ c ∈ fs, .flag c ∈ f.items) → ∀ c ∈ fs, c = 's' := by
    intro fs hfs hmem c hc
    have hkind := kind_flag (hfs c hc)
    have hno : ∀ d ∈ ['h', 'g', 'v'], c ≠ d := fun d hd hcd => hserved d hd (hcd ▸ hmem c hc)
    simp_all
  cases f with
  | flags cs =>
    obtain ⟨c, hc, rfl⟩ := List.mem_map.mp hi
    exact .inl (by rw [hflags cs hok.2 (fun d hd => List.mem_map_of_mem hd) c hc])
  | joined fs c a | separate fs c a =>
    simp only [Form.items, List.mem_append, List.mem_map, List.mem_singleton] at hi
    rcases hi with ⟨d, hd, rfl⟩ | rfl
    · have hmem : ∀ d ∈ fs, Item.flag d ∈ fs.map Item.flag ++ [.arg c a] := fun d hd => by simp [hd]
      exact .inl (by rw [hflags fs hok.1 hmem d hd])
    · exact .inr ⟨c, a, kind_arg (by first | exact hok.2.1 | exact hok.2), rfl⟩
  | operand w => simp [Form.items] at hi

/-- **The options are read exactly when the arguments are of their grammar**: clusters of `-s`, each
of which may end in one of `-d`, `-c`, `-r` and `-k` with its argument in the same word or the next,
and operands between them, to the end or to a `--`. Then the last `-c` and the last `-r` count, `-s`
counts wherever it stands, and the keys of all `-k` are decoded one over another. Operands may come
between options as GNU `getopt` permutes them; with `POSIXLY_CORRECT` set the first would end them. -/
theorem options_read_iff (env : Environment) (argv : List String) (t : Settings) :
    readOptions env argv = .ok t ↔ ∃ (forms : List (Form Char)) (rest : List (List Char)),
      (∀ f ∈ forms, Form.Served f) ∧ Ends optstring rest ∧
        argv.map String.toList = forms.flatMap (Form.words optstring) ++ rest ∧
          t = Settings.given env {} (forms.flatMap Form.items) := by
  unfold readOptions
  rw [foldlM_option_iff]
  constructor
  · intro h
    obtain ⟨hall, rfl⟩ := h
    have hclean : Getopt.Clean (scan optstring (argv.map String.toList)) := by
      intro c hc
      rcases hall _ hc with h | ⟨_, _, -, h⟩ <;> cases h
    obtain ⟨forms, rest, hok, hends, hargv⟩ := Getopt.wellformed_of_clean hclean
    have hscan : scan optstring (argv.map String.toList) = forms.flatMap Form.items := by
      rw [hargv, Getopt.scan_forms hok, Getopt.scan_ends hends, List.append_nil]
    refine ⟨forms, rest, fun f hf => ⟨hok f hf, fun c hc hmem => ?_⟩, hends, hargv, by rw [hscan]⟩
    have hstays := hall (.flag c) (hscan ▸ List.mem_flatMap_of_mem hf hmem)
    rcases hstays with h | ⟨_, _, -, h⟩
    · cases h
      simp at hc
    · cases h
  · intro h
    obtain ⟨forms, rest, hserved, hends, hargv, rfl⟩ := h
    have hscan : scan optstring (argv.map String.toList) = forms.flatMap Form.items := by
      rw [hargv, Getopt.scan_forms fun f hf => (hserved f hf).1, Getopt.scan_ends hends, List.append_nil]
    rw [hscan]
    refine ⟨fun i hi => ?_, rfl⟩
    obtain ⟨f, hf, hi⟩ := List.mem_flatMap.mp hi
    exact stays_of_served (hserved f hf) hi

example (env : Environment) :
    (readOptions env ["-c", "a.json", "-sr/tmp", "x", "-cb.json", "--", "-h"]).map (fun s => (s.strcfgfile, s.rootFolder)) =
      .ok ("b.json", "/tmp") := by rfl

/-! ## The program -/

/-- What `fork` comes to. -/
inductive Fork where
  | failed
  | parent
  | child
  deriving DecidableEq

/-- What the calls of `main` come to. -/
structure World where
  fork : Fork
  setsid : Bool
  /-- The pid file can be opened for writing. -/
  pidFile : Bool
  /-- `chdir(rootFolder)` succeeds. -/
  chdir : Bool
  /-- `gpobj->init` returns true. -/
  init : Bool
  /-- Nothing throws while the sinks and the logger are made. -/
  logger : Bool
  /-- `gpobj->run` returns true. -/
  run : Bool
  /-- `gpobj->cleanup` returns true. -/
  cleanup : Bool

/-- The files there are, by their paths. -/
abbrev Files := String → Bool

def Files.unlink (files : Files) (path : String) : Files := Function.update files path false

/-- `daemonize`: the process that goes on, or an exit status. -/
def daemonize (s : Settings) (w : World) : Except Int Unit :=
  if s.dontRunAsDaemon then .ok ()
  else match w.fork with
    | .failed => .error (-1)
    | .parent => .error 0
    | .child => if w.setsid then .ok () else .error (-1)

/-- `writePidFile` -/
def writePidFile (w : World) (path : String) (files : Files) : Files :=
  if w.pidFile then Function.update files path true else files

/-- `main` from the control object on: the exit status and the files it leaves. -/
def serve (w : World) (files : Files) : Int × Files :=
  if !w.init then (1, files.unlink "/var/run/vscpd.pid")
  else if !w.logger then (1, files)
  else if !w.run then (1, files.unlink "/var/run/vscpd.pid")
  else if !w.cleanup then (1, files)
  else (0, files.unlink "/var/run/vscp/vscpd.pid")

/-- `main`, for a process whose arguments are these. -/
def main (env : Environment) (argv : List String) (w : World) (files : Files) : Int × Files :=
  match readOptions env argv with
  | .error e => (e.status, files)
  | .ok s =>
    match daemonize s w with
    | .error status => (status, files)
    | .ok () =>
      let files := if !s.dontRunAsDaemon then writePidFile w "/var/run/vscpd.pid" files else files
      serve w (if !w.chdir then files.unlink "/var/run/vscpd.pid" else files)

/-- The process gets as far as the control object, as a daemon or not. -/
def Serves (s : Settings) (w : World) : Prop := s.dontRunAsDaemon = true ∨ w.fork = .child ∧ w.setsid = true

theorem daemonize_ok_iff {w : World} : daemonize s w = .ok () ↔ Serves s w := by
  unfold daemonize Serves
  cases s.dontRunAsDaemon <;> cases w.fork <;> cases w.setsid <;> simp

/-- The pid file after `serve`. -/
theorem pidFile_serve (w : World) (files : Files) :
    (serve w files).2 "/var/run/vscpd.pid" = true ↔
      files "/var/run/vscpd.pid" = true ∧ w.init = true ∧ (w.logger = true → w.run = true) := by
  unfold serve Files.unlink
  cases w.init <;> cases w.logger <;> cases w.run <;> cases w.cleanup <;> simp

/-- **The pid file is left behind exactly where nothing but the log set-up or the last cleanup
fails**, and so whenever the daemon ends well: the path `main` unlinks then is not the one it wrote.
A process that is no daemon writes no pid file, but takes that of another one away where it fails. -/
theorem pid_file_left_iff {env : Environment} {argv : List String} {s : Settings} {w : World} (files : Files)
    (hs : readOptions env argv = .ok s) (hw : Serves s w) :
    ((main env argv w files).2 "/var/run/vscpd.pid" = true ↔
      (files "/var/run/vscpd.pid" = true ∨ s.dontRunAsDaemon = false ∧ w.pidFile = true) ∧ w.chdir = true ∧
        w.init = true ∧ (w.logger = true → w.run = true)) ∧
    ((main env argv w files).1 = 0 ↔ w.init = true ∧ w.logger = true ∧ w.run = true ∧ w.cleanup = true) := by
  simp only [main, hs, daemonize_ok_iff.mpr hw]
  constructor
  · rw [pidFile_serve]
    cases w.chdir <;> cases s.dontRunAsDaemon <;> cases hp : w.pidFile <;> simp [writePidFile, Files.unlink, hp]
  · unfold serve
    cases w.init <;> cases w.logger <;> cases w.run <;> cases w.cleanup <;> simp

end MqttVscpd.CommandLine

/-
The class and type tokens: `CControlObject::init` reads them from the class and
type database into four maps, from ids to tokens and from tokens to ids. The id of
a type is its class and its number, packed into 32 bits. A token is read as a C
string, so one with a NUL in it is stored up to there.
-/
import MqttVscpd.ControlObject
import MqttVscpd.Lib.Keyed

namespace MqttVscpd

open Keyed

/-- A row of `SELECT class,name,token from vscp_class`, with the texts of its columns.
`name` is read, and used nowhere. The texts are read as `const char *`. -/
structure ClassRow where
  vscpClass : Int32
  name : String
  token : String

/-- A row of `SELECT type,link_to_class,token from vscp_type`. -/
structure TypeRow where
  vscpType : Int32
  linkToClass : Int32
  token : String

/-- The maps, `none` where there is no entry. -/
structure TokenMaps where
  classId2Token : UInt16 → Option String := fun _ => none
  classToken2Id : String → Option UInt16 := fun _ => none
  typeId2Token : UInt32 → Option String := fun _ => none
  typeToken2Id : String → Option UInt32 := fun _ => none

/-- `(uint16_t) sqlite3_column_int(..)` -/
def columnUInt16 (n : Int32) : UInt16 := n.toUInt32.toUInt16

/-- `(link_to_class << 16) + vscp_type`, an `int`, as the `uint32_t` key. -/
def typeKey (cid tid : UInt16) : UInt32 := ((cid.toUInt32.toInt32 <<< 16) + tid.toUInt32.toInt32).toUInt32

namespace TokenMaps

/-- The body of the loop over the classes. -/
def loadClass (m : TokenMaps) (r : ClassRow) : TokenMaps :=
  let vscpClass := columnUInt16 r.vscpClass
  let token := c_str r.token
  { m with
    classId2Token := Function.update m.classId2Token vscpClass (some token)
    classToken2Id := Function.update m.classToken2Id token (some vscpClass) }

/-- The body of the loop over the types. -/
def loadType (m : TokenMaps) (r : TypeRow) : TokenMaps :=
  let vscpType := columnUInt16 r.vscpType
  let linkToClass := columnUInt16 r.linkToClass
  let token := c_str r.token
  { m with
    typeId2Token := Function.update m.typeId2Token (typeKey linkToClass vscpType) (some token)
    typeToken2Id := Function.update m.typeToken2Id token (some (typeKey linkToClass vscpType)) }

def loadClasses (m : TokenMaps) (rows : List ClassRow) : TokenMaps := rows.foldl loadClass m

def loadTypes (m : TokenMaps) (rows : List TypeRow) : TokenMaps := rows.foldl loadType m

/-- `std::map::operator[]`: the value at a key, which an absent key is given first. -/
def subscript {K : Type} [DecidableEq K] (m : K → Option String) (k : K) : String × (K → Option String) :=
  match m k with
  | some v => (v, m)
  | none => ("", Function.update m k (some ""))

def getTokenFromClassId (m : TokenMaps) (id : UInt16) : String × TokenMaps :=
  let (token, classId2Token) := subscript m.classId2Token id
  (token, { m with classId2Token })

def getTokenFromTypeId (m : TokenMaps) (cid tid : UInt16) : String × TokenMaps :=
  let (token, typeId2Token) := subscript m.typeId2Token (typeKey cid tid)
  (token, { m with typeId2Token })

end TokenMaps

/-- What SQLite answers `init` about the class and type database. -/
structure ClassTypeDb where
  /-- `sqlite3_open` returns `SQLITE_OK`. -/
  opened : Bool
  /-- The rows of the classes, `none` when the statement cannot be prepared. -/
  classes : Option (List ClassRow)
  /-- The rows of the types. -/
  types : Option (List TypeRow)

/-- `init` on the tokens, with `m_pathClassTypeDefinitionDb` in `path`. -/
def initTokens (path : String) (db : ClassTypeDb) : TokenMaps :=
  if path.length = 0 then {}
  else if db.opened then
    let m : TokenMaps := match db.classes with
      | none => {}
      | some rows => TokenMaps.loadClasses {} rows
    match db.types with
    | none => m
    | some rows => m.loadTypes rows
  else {}

/-! ## Ids -/

/-- A number `sqlite3_column_int` returns, and `uint16_t` can hold. -/
def InUInt16 (n : Int32) : Prop := 0 ≤ n.toInt ∧ n.toInt ≤ 65535

instance (n : Int32) : Decidable (InUInt16 n) := inferInstanceAs (Decidable (_ ∧ _))

/-- The id of a type: its class and its number. -/
def TypeRow.id (r : TypeRow) : Int32 × Int32 := (r.linkToClass, r.vscpType)

/-- The key a type is entered under. -/
def TypeRow.key (r : TypeRow) : UInt32 := typeKey (columnUInt16 r.linkToClass) (columnUInt16 r.vscpType)

theorem columnUInt16_toNat {n : Int32} (h : InUInt16 n) : ((columnUInt16 n).toNat : Int) = n.toInt := by
  obtain ⟨hlo, hhi⟩ := h
  have hle : (0 : Int32) ≤ n := Int32.le_iff_toInt_le.mpr hlo
  rw [columnUInt16, UInt32.toNat_toUInt16, Int32.toNat_toUInt32_of_le hle, ← Int32.toNat_toInt]
  omega

theorem columnUInt16_inj {n n' : Int32} (h : InUInt16 n) (h' : InUInt16 n') :
    columnUInt16 n = columnUInt16 n' ↔ n = n' := by
  rw [← UInt16.toNat_inj, ← Int.ofNat_inj, columnUInt16_toNat h, columnUInt16_toNat h', Int32.toInt_inj]

theorem typeKey_toNat (cid tid : UInt16) : (typeKey cid tid).toNat = cid.toNat * 65536 + tid.toNat := by
  -- The shift and the sum wrap as `int`s do, and the conversion to `uint32_t` unwraps them.
  have h : typeKey cid tid = (cid.toUInt32 <<< 16) + tid.toUInt32 := rfl
  have hc := cid.toNat_lt
  have ht := tid.toNat_lt
  rw [h, UInt32.toNat_add, UInt32.toNat_shiftLeft, Nat.shiftLeft_eq]
  simp only [UInt16.toNat_toUInt32, UInt32.reduceToNat, Nat.reduceMod, Nat.reducePow]
  omega

/-- Shifting a class from 32768 on overflows an `int`. -/
example : typeKey 40000 7 = 0x9C400007 := by decide

theorem typeKey_inj {cid tid cid' tid' : UInt16} : typeKey cid tid = typeKey cid' tid' ↔ cid = cid' ∧ tid = tid' := by
  have ht := tid.toNat_lt
  have ht' := tid'.toNat_lt
  rw [← UInt32.toNat_inj, typeKey_toNat, typeKey_toNat, ← UInt16.toNat_inj, ← UInt16.toNat_inj]
  omega

/-! ## Tokens -/

/-- The token a class is stored with: the whole text, when there is no NUL in it. -/
def ClassRow.stored (r : ClassRow) : String := c_str r.token

/-- The token a type is stored with. -/
def TypeRow.stored (r : TypeRow) : String := c_str r.token

/-! ## The loading loops -/

namespace TokenMaps

variable (m : TokenMaps)

/-- The loop over the classes loads the two class maps, row by row, and leaves the others alone. -/
theorem loadClasses_eq (rows : List ClassRow) :
    m.loadClasses rows = { m with
      classId2Token := load (fun r => columnUInt16 r.vscpClass) ClassRow.stored m.classId2Token rows
      classToken2Id := load ClassRow.stored (fun r => columnUInt16 r.vscpClass) m.classToken2Id rows } := by
  induction rows generalizing m with
  | nil => rfl
  | cons r rows ih => exact ih (m.loadClass r)

/-- The loop over the types loads the two type maps, row by row, and leaves the others alone. -/
theorem loadTypes_eq (rows : List TypeRow) :
    m.loadTypes rows = { m with
      typeId2Token := load TypeRow.key TypeRow.stored m.typeId2Token rows
      typeToken2Id := load TypeRow.stored TypeRow.key m.typeToken2Id rows } := by
  induction rows generalizing m with
  | nil => rfl
  | cons r rows ih => exact ih (m.loadType r)

theorem subscript_fst {K : Type} [DecidableEq K] (m : K → Option String) (k : K) :
    (subscript m k).1 = (m k).getD "" := by
  rw [subscript]
  cases m k <;> rfl

/-- Reading a map may enter an empty token; nothing that reads it tells. -/
theorem subscript_keeps {K : Type} [DecidableEq K] (m : K → Option String) (k k' : K) :
    (subscript (subscript m k).2 k').1 = (subscript m k').1 := by
  rw [subscript_fst, subscript_fst]
  cases hm : m k with
  | some token => simp only [subscript, hm]
  | none =>
    simp only [subscript, hm]
    by_cases hk : k' = k
    · rw [hk, Function.update_self, hm]
      rfl
    · rw [Function.update_of_ne hk]

theorem getTokenFromTypeId_keeps (cid tid cid' tid' : UInt16) :
    ((m.getTokenFromTypeId cid tid).2.getTokenFromTypeId cid' tid').1 = (m.getTokenFromTypeId cid' tid').1 :=
  subscript_keeps _ _ _

end TokenMaps

/-- What the maps hold after the loops over `classes` and `types`, whose tokens are
`classToken` and `typeToken`: the last row of an id gives its token, and the last row of
a token its id. -/
structure TokensLoaded (classToken : ClassRow → String) (typeToken : TypeRow → String)
    (classes : List ClassRow) (types : List TypeRow) (m : TokenMaps) : Prop where
  classId2Token : ∀ id token, m.classId2Token id = some token ↔
    ∃ r, Last ClassRow.vscpClass classes r ∧ r.vscpClass.toInt = id.toNat ∧ classToken r = token
  classToken2Id : ∀ token id, m.classToken2Id token = some id ↔
    ∃ r, Last classToken classes r ∧ classToken r = token ∧ r.vscpClass.toInt = id.toNat
  typeId2Token : ∀ cid tid token, m.typeId2Token (typeKey cid tid) = some token ↔
    ∃ r, Last TypeRow.id types r ∧ r.linkToClass.toInt = cid.toNat ∧ r.vscpType.toInt = tid.toNat ∧
      typeToken r = token
  typeToken2Id : ∀ token cid tid, m.typeToken2Id token = some (typeKey cid tid) ↔
    ∃ r, Last typeToken types r ∧ typeToken r = token ∧ r.linkToClass.toInt = cid.toNat ∧
      r.vscpType.toInt = tid.toNat
  /-- A key is a class and a type in one way only. -/
  typeKey_inj : ∀ cid tid cid' tid', typeKey cid tid = typeKey cid' tid' → cid = cid' ∧ tid = tid'
  /-- A lookup finds what is stored, and the empty token where nothing is. -/
  getTokenFromClassId : ∀ id, (m.getTokenFromClassId id).1 = (m.classId2Token id).getD ""
  getTokenFromTypeId : ∀ cid tid, (m.getTokenFromTypeId cid tid).1 = (m.typeId2Token (typeKey cid tid)).getD ""
  classes_inverse : (classes.map ClassRow.vscpClass).Nodup → (classes.map classToken).Nodup →
    ∀ id token, m.classId2Token id = some token ↔ m.classToken2Id token = some id
  types_inverse : (types.map TypeRow.id).Nodup → (types.map typeToken).Nodup →
    ∀ key token, m.typeId2Token key = some token ↔ m.typeToken2Id token = some key

theorem columnUInt16_eq_iff {n : Int32} (h : InUInt16 n) {id : UInt16} :
    columnUInt16 n = id ↔ n.toInt = id.toNat := by
  rw [← UInt16.toNat_inj, ← Int.ofNat_inj, columnUInt16_toNat h]

theorem key_eq_iff {r : TypeRow} (h : InUInt16 r.vscpType ∧ InUInt16 r.linkToClass) {cid tid : UInt16} :
    r.key = typeKey cid tid ↔ r.linkToClass.toInt = cid.toNat ∧ r.vscpType.toInt = tid.toNat := by
  rw [TypeRow.key, typeKey_inj, columnUInt16_eq_iff h.1, columnUInt16_eq_iff h.2]

/-- The rows of types have the same key when they have the same id. -/
theorem key_inj {r r' : TypeRow} (h : InUInt16 r.vscpType ∧ InUInt16 r.linkToClass)
    (h' : InUInt16 r'.vscpType ∧ InUInt16 r'.linkToClass) : r.key = r'.key ↔ r.id = r'.id := by
  rw [TypeRow.key, TypeRow.key, typeKey_inj, columnUInt16_inj h.1 h'.1, columnUInt16_inj h.2 h'.2, TypeRow.id,
    TypeRow.id, Prod.mk.injEq]

section loaded

variable {path : String} {classes : List ClassRow} {types : List TypeRow}

theorem initTokens_eq (hpath : path.length ≠ 0) :
    initTokens path ⟨true, some classes, some types⟩ = {
      classId2Token := load (fun r => columnUInt16 r.vscpClass) ClassRow.stored (fun _ => none) classes
      classToken2Id := load ClassRow.stored (fun r => columnUInt16 r.vscpClass) (fun _ => none) classes
      typeId2Token := load TypeRow.key TypeRow.stored (fun _ => none) types
      typeToken2Id := load TypeRow.stored TypeRow.key (fun _ => none) types } := by
  rw [initTokens, if_neg hpath, if_pos rfl]
  simp only [TokenMaps.loadTypes_eq, TokenMaps.loadClasses_eq]

/-- **The tokens are loaded consistently**, each up to its first NUL, for rows in any
order and with any repetitions, their numbers such as `uint16_t` can hold. -/
theorem tokens_loaded (hpath : path.length ≠ 0) (hclasses : ∀ r ∈ classes, InUInt16 r.vscpClass)
    (htypes : ∀ r ∈ types, InUInt16 r.vscpType ∧ InUInt16 r.linkToClass) :
    TokensLoaded ClassRow.stored TypeRow.stored classes types
      (initTokens path ⟨true, some classes, some types⟩) := by
  have hclass : ∀ r ∈ classes, ∀ r' ∈ classes,
      columnUInt16 r.vscpClass = columnUInt16 r'.vscpClass ↔ r.vscpClass = r'.vscpClass :=
    fun r hr r' hr' => columnUInt16_inj (hclasses r hr) (hclasses r' hr')
  have htype : ∀ r ∈ types, ∀ r' ∈ types, r.key = r'.key ↔ r.id = r'.id :=
    fun r hr r' hr' => key_inj (htypes r hr) (htypes r' hr')
  rw [initTokens_eq hpath]
  constructor
  case classId2Token =>
    intro id token
    rw [load_iff_last_congr hclass]
    refine exists_congr fun r => and_congr_right fun hlast => ?_
    rw [columnUInt16_eq_iff (hclasses r hlast.mem)]
  case classToken2Id =>
    intro token id
    rw [load_iff_last]
    refine exists_congr fun r => and_congr_right fun hlast => ?_
    rw [columnUInt16_eq_iff (hclasses r hlast.mem)]
  case typeId2Token =>
    intro cid tid token
    rw [load_iff_last_congr htype]
    refine exists_congr fun r => and_congr_right fun hlast => ?_
    rw [key_eq_iff (htypes r hlast.mem), and_assoc]
  case typeToken2Id =>
    intro token cid tid
    rw [load_iff_last]
    refine exists_congr fun r => and_congr_right fun hlast => ?_
    rw [key_eq_iff (htypes r hlast.mem)]
  case typeKey_inj => exact fun _ _ _ _ => typeKey_inj.mp
  case getTokenFromClassId => exact fun _ => TokenMaps.subscript_fst _ _
  case getTokenFromTypeId => exact fun _ _ => TokenMaps.subscript_fst _ _
  case classes_inverse =>
    intro hid htoken id token
    exact load_inverse (nodup_congr hclass hid) htoken
  case types_inverse =>
    intro hid htoken key token
    exact load_inverse (nodup_congr htype hid) htoken

end loaded

/-- Class 20 twice, a token with a NUL in it, and one type of the highest class. -/
def repeatedClass : ClassTypeDb where
  opened := true
  classes := some [⟨20, "Information", "OLD"⟩, ⟨65535, "Log", "LOG\x00OLD"⟩,
    ⟨20, "Information", "CLASS1.INFORMATION"⟩]
  types := some [⟨9, 65535, "VSCP_TYPE_LOG"⟩]

theorem tokens_loaded_repeatedClass :
    TokensLoaded ClassRow.stored TypeRow.stored (repeatedClass.classes.getD []) (repeatedClass.types.getD [])
        (initTokens "vscp.db" repeatedClass) ∧
      (initTokens "vscp.db" repeatedClass).classId2Token 20 = some "CLASS1.INFORMATION" ∧
      (initTokens "vscp.db" repeatedClass).classToken2Id "LOG" = some 65535 ∧
      ((initTokens "vscp.db" repeatedClass).getTokenFromTypeId 65535 9).1 = "VSCP_TYPE_LOG" :=
  ⟨tokens_loaded (by decide) (by decide) (by decide), by decide, by decide, by decide⟩

/-- Two classes, whose tokens differ after a NUL. -/
def cutTokens : List ClassRow := [⟨1, "First", "A\x00B"⟩, ⟨2, "Second", "A\x00C"⟩]

/-- The ids and the tokens are unique, and the maps are not inverses of each other: both
classes are stored with the token "A". -/
theorem not_tokens_loaded_cut :
    (cutTokens.map ClassRow.vscpClass).Nodup ∧ (cutTokens.map ClassRow.token).Nodup ∧
      ¬ TokensLoaded ClassRow.token TypeRow.token cutTokens [] (initTokens "vscp.db" ⟨true, some cutTokens, some []⟩) := by
  refine ⟨by decide, by decide, fun h => ?_⟩
  have hstored : (initTokens "vscp.db" ⟨true, some cutTokens, some []⟩).classId2Token 1 = some "A" := by decide
  have hback := (h.classes_inverse (by decide) (by decide) 1 "A").mp hstored
  exact absurd hback (by decide)

end MqttVscpd

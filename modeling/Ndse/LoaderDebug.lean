import Ndse.SourceDebug

/-!
# Line infos from a compile unit

The ELF loader takes the source files and the line records of a compile unit from
the DWARF library and enters them into the debug database.  Records that do not
end a sequence cover the addresses up to the next record.  The loader tests
`fileno`, which is a function of the C library and never 0, where it should test
the record's own `fileno`.
-/

namespace Ndse

/-! ### The records -/

/-- What the DWARF library knows about a line. -/
structure DwarfLine where
  lineno : Option (BitVec 64)
  srcfileno : Option (BitVec 64)
  lineoff : Option (BitVec 64)
  lineaddr : Option (BitVec 64)
  lineendsequence : Option Bool
deriving DecidableEq, Repr

/-- `dwarf_lineinfo` without `begin`, which nothing reads. -/
structure DwarfLineinfo where
  lineno : BitVec 64
  fileno : BitVec 64
  colno : BitVec 64
  addr : BitVec 64
  ends : Bool
deriving DecidableEq, Repr

/-- `load_lineinfo`. -/
def loadLineinfo (line : DwarfLine) : DwarfLineinfo where
  lineno := line.lineno.getD 0
  fileno := line.srcfileno.getD 0
  colno := line.lineoff.getD (-1)
  addr := line.lineaddr.getD 0
  ends := line.lineendsequence.getD false

/-- The line number of a record, as an `int`. -/
def DwarfLineinfo.line (info : DwarfLineinfo) : Int := (info.lineno.setWidth 32).toInt

namespace SourceDebug

/-! ### The database -/

/-- `source_debug::add_source`. -/
def addSource (debug : SourceDebug) (src : List (BitVec 8)) : SourceDebug × Nat :=
  let name := src.map (BitVec.signExtend 16)
  match debug.files.findIdx? fun file => file.filename == name with
  | some idx => (debug, idx)
  | none => ({ debug with files := debug.files ++ [⟨name, []⟩] }, debug.files.length)

/-- The source files of a compile unit, with its `filemap`. -/
def loadSources (debug : SourceDebug) : List (List (BitVec 8)) → SourceDebug × List Nat
  | [] => (debug, [])
  | src :: sources =>
      let added := debug.addSource src
      let loaded := added.1.loadSources sources
      (loaded.1, added.2 :: loaded.2)

/-- `lines.resize` and the `push_back` behind it. -/
def pushLine (lineinfo : List (Option (List SourceInfo))) (lineno : Nat) (info : SourceInfo) :
    List (Option (List SourceInfo)) :=
  let lineinfo := lineinfo ++ List.replicate (lineno + 1 - lineinfo.length) none
  lineinfo.set lineno (some ((lineinfo[lineno]?.join).getD [] ++ [info]))

section

-- what the interval map makes of an addition
variable (join : DebugMap → Interval → List SourceInfo → DebugMap)

/-- `source_debug::add`. -/
def add (debug : SourceDebug) (start stop : BitVec 32) (info : SourceInfo) (includeEnd : Bool) :
    SourceDebug :=
  { debug with debugMap := join debug.debugMap ⟨start, stop, includeEnd⟩ [info] }

/-- The loop's body for `cur` and `next`; `none` is an access out of range. -/
def recordLine (filemap : List Nat) (debug : SourceDebug) (cur next : DwarfLineinfo) :
    Option SourceDebug :=
  if cur.ends then some debug
  else
    -- the guard `fileno > 0` compares the address of a function
    match filemap[(cur.fileno.setWidth 32 - 1).toNat]? with
    | none => none
    | some fileno =>
        let si : SourceInfo :=
          { lopc := cur.addr.setWidth 32
            hipc := next.addr.setWidth 32
            lineno := cur.line
            fileno := fileno
            colno := (cur.colno.setWidth 32).toInt }
        if 0 ≤ si.lineno then
          match debug.files[fileno]? with
          | none => none
          | some file =>
              let file := { file with lineinfo := pushLine file.lineinfo si.lineno.toNat si }
              some (add join { debug with files := debug.files.set fileno file }
                (cur.addr.setWidth 32) (next.addr.setWidth 32) si false)
        else some (debug.add join (cur.addr.setWidth 32) (next.addr.setWidth 32) si false)

/-- The line loop of `load_debug` from `cur` on. -/
def loadLines (filemap : List Nat) : DwarfLineinfo → List DwarfLineinfo → SourceDebug →
    Option SourceDebug
  | _, [], debug => some debug
  | cur, next :: rest, debug =>
      match debug.recordLine join filemap cur next with
      | none => none
      | some debug => loadLines filemap next rest debug

/-- The sources and the lines of a compile unit in `load_debug`. -/
def loadUnit (debug : SourceDebug) (sources : List (List (BitVec 8))) (lines : List DwarfLine) :
    Option SourceDebug :=
  let loaded := debug.loadSources sources
  match lines.map loadLineinfo with
  | [] => some loaded.1
  | cur :: rest => loadLines join loaded.2 cur rest loaded.1

end

/-! ### What a compile unit adds -/

/-- The infos of a line of a file. -/
def infosAt (debug : SourceDebug) (file lineno : Nat) : List SourceInfo :=
  (debug.files[file]?.bind fun file => file.lineinfo[lineno]?.join).getD []

/-- The global index of a file of the unit, of which 0 is unknown. -/
def fileOf (filemap : List Nat) (fileno : BitVec 64) : Int :=
  if fileno = 0 then -1 else ((filemap[fileno.toNat - 1]?).map Int.ofNat).getD (-1)

/-- The info of a record that ends with the next one. -/
def sourceInfo (filemap : List Nat) (cur next : DwarfLineinfo) : SourceInfo where
  lineno := cur.line
  fileno := fileOf filemap cur.fileno
  colno := (cur.colno.setWidth 32).toInt
  lopc := cur.addr.setWidth 32
  hipc := next.addr.setWidth 32

/-- The records that do not end a sequence, each with the next one. -/
def covering (lines : List DwarfLineinfo) : List (DwarfLineinfo × DwarfLineinfo) :=
  (lines.zip lines.tail).filter fun pair => !pair.1.ends

/-- Infos are entered under their addresses and under their lines, and nothing
else happens. -/
structure Enters (join : DebugMap → Interval → List SourceInfo → DebugMap)
    (before after : SourceDebug) (infos : List SourceInfo) : Prop where
  debugMap : after.debugMap =
    infos.foldl (fun map info => join map ⟨info.lopc, info.hipc, false⟩ [info]) before.debugMap
  filenames : after.files.map SourceFileinfo.filename = before.files.map SourceFileinfo.filename
  lines : ∀ file lineno : Nat, after.infosAt file lineno = before.infosAt file lineno ++
    infos.filter fun info => info.fileno = (file : Int) ∧ info.lineno = (lineno : Int)

variable {join : DebugMap → Interval → List SourceInfo → DebugMap}
  {before between after debug : SourceDebug}

theorem enters_nothing (debug : SourceDebug) : Enters join debug debug [] :=
  ⟨rfl, rfl, fun _ _ => (List.append_nil _).symm⟩

theorem Enters.append {first second : List SourceInfo} (one : Enters join before between first)
    (other : Enters join between after second) : Enters join before after (first ++ second) where
  debugMap := by rw [other.debugMap, one.debugMap, List.foldl_append]
  filenames := other.filenames.trans one.filenames
  lines := by
    intro file lineno
    rw [other.lines, one.lines, List.filter_append, List.append_assoc]

theorem Enters.files_length {infos : List SourceInfo} (enters : Enters join before after infos) :
    after.files.length = before.files.length := by
  have names := congrArg List.length enters.filenames
  rwa [List.length_map, List.length_map] at names

/-! ### One line -/

theorem getD_pushLine (lineinfo : List (Option (List SourceInfo))) (lineno other : Nat)
    (info : SourceInfo) : ((pushLine lineinfo lineno info)[other]?.join).getD [] =
      (lineinfo[other]?.join).getD [] ++ if other = lineno then [info] else [] := by
  have grown (place : Nat) : ((lineinfo ++ List.replicate (lineno + 1 - lineinfo.length)
      none)[place]?.join).getD [] = (lineinfo[place]?.join).getD [] := by
    rw [List.getElem?_append]
    split
    · rfl
    · next beyond =>
      rw [List.getElem?_eq_none (Nat.le_of_not_lt beyond), List.getElem?_replicate]
      split <;> rfl
  have fits : lineno < (lineinfo ++ List.replicate (lineno + 1 - lineinfo.length)
      (none : Option (List SourceInfo))).length := by
    rw [List.length_append, List.length_replicate]
    omega
  rw [pushLine, List.getElem?_set]
  by_cases here : other = lineno
  · subst here
    rw [if_pos rfl, if_pos fits, if_pos rfl, grown]
    rfl
  · rw [if_neg (Ne.symm here), if_neg here, grown, List.append_nil]

/-- An info of a known file, entered under its line and under its addresses. -/
theorem enters_info {file : Nat} {fileinfo : SourceFileinfo} (info : SourceInfo)
    (known : before.files[file]? = some fileinfo) (fileno : info.fileno = file)
    (positive : 0 ≤ info.lineno) :
    Enters join before
      (add join ⟨before.debugMap, before.files.set file
        { fileinfo with lineinfo := pushLine fileinfo.lineinfo info.lineno.toNat info }⟩
        info.lopc info.hipc info false) [info] where
  debugMap := rfl
  filenames := by
    obtain ⟨inside, rfl⟩ := List.getElem?_eq_some_iff.mp known
    have within : file < (before.files.map SourceFileinfo.filename).length := by
      rw [List.length_map]
      exact inside
    have same := List.set_getElem_self within
    rw [List.getElem_map] at same
    change (before.files.set file _).map _ = _
    rw [List.map_set]
    exact same
  lines := by
    intro other lineno
    have inside := (List.getElem?_eq_some_iff.mp known).1
    by_cases here : other = file
    · subst here
      change ((before.files.set other _)[other]?.bind _).getD [] = _
      rw [infosAt, known, List.getElem?_set_self inside, Option.bind_some, Option.bind_some,
        getD_pushLine]
      congr 1
      by_cases line : lineno = info.lineno.toNat
      · have place : info.lineno = (lineno : Int) := by omega
        rw [if_pos line, List.filter_cons_of_pos (by simp [fileno, place]), List.filter_nil]
      · have place : info.lineno ≠ (lineno : Int) := by omega
        rw [if_neg line, List.filter_cons_of_neg (by simp [place]), List.filter_nil]
    · have elsewhere : info.fileno ≠ (other : Int) := by omega
      rw [List.filter_cons_of_neg (by simp [elsewhere]), List.filter_nil, List.append_nil]
      change ((before.files.set file _)[other]?.bind _).getD [] = _
      rw [infosAt, List.getElem?_set_ne (Ne.symm here)]

/-- The files of a unit are files of the database. -/
def MapsFiles (debug : SourceDebug) (filemap : List Nat) : Prop :=
  ∀ file ∈ filemap, file < debug.files.length

theorem fileOf_known {filemap : List Nat} {fileno : BitVec 64} (nonzero : fileno ≠ 0)
    (within : fileno.toNat ≤ filemap.length) (fits : filemap.length < 2 ^ 32) :
    ∃ file, filemap[(fileno.setWidth 32 - 1).toNat]? = some file ∧
      fileOf filemap fileno = file ∧ file ∈ filemap := by
  have positive : 0 < fileno.toNat :=
    Nat.pos_of_ne_zero fun zero => nonzero (BitVec.eq_of_toNat_eq zero)
  have index : (fileno.setWidth 32 - 1).toNat = fileno.toNat - 1 := by
    rw [BitVec.toNat_sub, BitVec.toNat_setWidth, show (1 : BitVec 32).toNat = 1 from rfl]
    omega
  have inside : fileno.toNat - 1 < filemap.length := by omega
  refine ⟨filemap[fileno.toNat - 1], ?_, ?_, List.getElem_mem inside⟩
  · rw [index, List.getElem?_eq_getElem inside]
  · rw [fileOf, if_neg nonzero, List.getElem?_eq_getElem inside]
    rfl

theorem recordLine_ends (filemap : List Nat) (debug : SourceDebug) {cur : DwarfLineinfo}
    (ends : cur.ends = true) (next : DwarfLineinfo) :
    recordLine join filemap debug cur next = some debug := by
  rw [recordLine, if_pos ends]

theorem recordLine_unknown {filemap : List Nat} (debug : SourceDebug) {cur : DwarfLineinfo}
    (covers : cur.ends = false) (unknown : cur.fileno = 0) (fits : filemap.length < 2 ^ 32)
    (next : DwarfLineinfo) : recordLine join filemap debug cur next = none := by
  have beyond : filemap[(cur.fileno.setWidth 32 - 1).toNat]? = none := by
    rw [unknown]
    apply List.getElem?_eq_none
    exact Nat.le_of_lt_succ fits
  rw [recordLine, covers, if_neg Bool.false_ne_true, beyond]

theorem recordLine_known {filemap : List Nat} (maps : debug.MapsFiles filemap)
    {cur : DwarfLineinfo} (covers : cur.ends = false) (nonzero : cur.fileno ≠ 0)
    (within : cur.fileno.toNat ≤ filemap.length) (fits : filemap.length < 2 ^ 32)
    (positive : 0 ≤ cur.line) (next : DwarfLineinfo) :
    ∃ after, recordLine join filemap debug cur next = some after ∧
      Enters join debug after [sourceInfo filemap cur next] := by
  obtain ⟨file, found, global, member⟩ := fileOf_known nonzero within fits
  have known := List.getElem?_eq_getElem (maps file member)
  rw [recordLine, covers, if_neg Bool.false_ne_true, found]
  simp only [if_pos positive, known]
  refine ⟨_, rfl, ?_⟩
  have entered : Enters join debug _ [sourceInfo filemap cur next] :=
    enters_info (sourceInfo filemap cur next) known global positive
  rw [sourceInfo, global] at entered
  rw [sourceInfo, global]
  exact entered

/-! ### All lines -/

/-- A record that covers addresses has a file. -/
def Known (pair : DwarfLineinfo × DwarfLineinfo) : Prop :=
  pair.1.fileno ≠ 0

instance decidableKnown : DecidablePred Known :=
  fun _ => inferInstanceAs (Decidable (_ ≠ _))

/-- A line record that the library may return for a unit with `count` files. -/
structure Formed (count : Nat) (info : DwarfLineinfo) : Prop where
  fileno : info.fileno.toNat ≤ count
  lineno : 0 ≤ info.line

instance decidableFormed (count : Nat) : DecidablePred (Formed count) :=
  fun info => decidable_of_iff (info.fileno.toNat ≤ count ∧ 0 ≤ info.line)
    ⟨fun both => ⟨both.1, both.2⟩, fun formed => ⟨formed.fileno, formed.lineno⟩⟩

theorem covering_cons (cur next : DwarfLineinfo) (rest : List DwarfLineinfo) :
    covering (cur :: next :: rest) =
      (if cur.ends then [] else [(cur, next)]) ++ covering (next :: rest) := by
  rw [covering, List.tail_cons, List.zip_cons_cons]
  cases ends : cur.ends with
  | false => rw [List.filter_cons_of_pos (by simp [ends])]; rfl
  | true => rw [List.filter_cons_of_neg (by simp [ends])]; rfl

theorem MapsFiles.kept {filemap : List Nat} (maps : before.MapsFiles filemap)
    {infos : List SourceInfo} (enters : Enters join before after infos) :
    after.MapsFiles filemap := by
  intro file member
  rw [enters.files_length]
  exact maps file member

/-- What the line loop enters from `cur` on. -/
theorem loadLines_enters {filemap : List Nat} (fits : filemap.length < 2 ^ 32)
    {cur : DwarfLineinfo} {rest : List DwarfLineinfo} (maps : debug.MapsFiles filemap)
    (formed : ∀ info ∈ cur :: rest, Formed filemap.length info)
    (known : ∀ pair ∈ covering (cur :: rest), Known pair) :
    ∃ after, loadLines join filemap cur rest debug = some after ∧
      Enters join debug after
        ((covering (cur :: rest)).map fun pair => sourceInfo filemap pair.1 pair.2) := by
  induction rest generalizing cur debug with
  | nil => exact ⟨debug, rfl, enters_nothing debug⟩
  | cons next rest ih =>
      rw [covering_cons] at known ⊢
      obtain ⟨now, later⟩ := List.forall_mem_cons.mp formed
      rw [loadLines]
      cases ends : cur.ends with
      | true =>
          rw [recordLine_ends filemap debug ends]
          rw [ends] at known
          exact ih maps later known
      | false =>
          rw [ends] at known
          obtain ⟨first, others⟩ := List.forall_mem_cons.mp known
          obtain ⟨between, recorded, entered⟩ := @recordLine_known join _ _ maps _ ends first
            now.fileno fits now.lineno next
          obtain ⟨after, loaded, more⟩ := ih (maps.kept entered) later others
          rw [recorded]
          exact ⟨after, loaded, entered.append more⟩

/-- A record without a file stops the line loop by an access out of range. -/
theorem known_of_loadLines {filemap : List Nat} (fits : filemap.length < 2 ^ 32)
    {cur : DwarfLineinfo} {rest : List DwarfLineinfo}
    (loaded : loadLines join filemap cur rest debug = some after) :
    ∀ pair ∈ covering (cur :: rest), Known pair := by
  induction rest generalizing cur debug with
  | nil => exact fun pair member => absurd member List.not_mem_nil
  | cons next rest ih =>
      rw [covering_cons]
      rw [loadLines] at loaded
      cases ends : cur.ends with
      | true =>
          rw [recordLine_ends filemap debug ends] at loaded
          exact ih loaded
      | false =>
          refine List.forall_mem_cons.mpr ⟨fun unknown => ?_, ?_⟩
          · rw [recordLine_unknown debug ends unknown fits] at loaded
            cases loaded
          · cases recorded : recordLine join filemap debug cur next with
            | none =>
                rw [recorded] at loaded
                cases loaded
            | some between =>
                rw [recorded] at loaded
                exact ih loaded

/-! ### The sources -/

theorem addSource_files (debug : SourceDebug) (src : List (BitVec 8)) :
    (debug.addSource src).2 < (debug.addSource src).1.files.length ∧
      debug.files.length ≤ (debug.addSource src).1.files.length := by
  rw [addSource]
  split
  · next idx found => exact ⟨(List.findIdx?_eq_some_iff_getElem.mp found).1, Nat.le_refl _⟩
  · rw [List.length_append]
    exact ⟨Nat.lt_succ_self _, Nat.le_add_right _ _⟩

theorem loadSources_length (debug : SourceDebug) (sources : List (List (BitVec 8))) :
    (debug.loadSources sources).2.length = sources.length := by
  induction sources generalizing debug with
  | nil => rfl
  | cons src sources ih => exact congrArg (· + 1) (ih _)

theorem loadSources_files (debug : SourceDebug) (sources : List (List (BitVec 8))) :
    (debug.loadSources sources).1.MapsFiles (debug.loadSources sources).2 ∧
      debug.files.length ≤ (debug.loadSources sources).1.files.length := by
  induction sources generalizing debug with
  | nil => exact ⟨fun file member => absurd member List.not_mem_nil, Nat.le_refl _⟩
  | cons src sources ih =>
      obtain ⟨inside, grown⟩ := debug.addSource_files src
      obtain ⟨maps, more⟩ := ih (debug.addSource src).1
      refine ⟨List.forall_mem_cons.mpr ⟨?_, maps⟩, grown.trans more⟩
      exact inside.trans_le more

/-- The loader enters exactly the covering records, if and only if each of them
has a file. -/
theorem loadUnit_enters_iff (join : DebugMap → Interval → List SourceInfo → DebugMap)
    (debug : SourceDebug) (sources : List (List (BitVec 8))) (lines : List DwarfLine)
    (fits : sources.length < 2 ^ 32)
    (formed : ∀ info ∈ lines.map loadLineinfo, Formed sources.length info) :
    (∃ after, debug.loadUnit join sources lines = some after ∧
      Enters join (debug.loadSources sources).1 after
        ((covering (lines.map loadLineinfo)).map fun pair =>
          sourceInfo (debug.loadSources sources).2 pair.1 pair.2)) ↔
      ∀ pair ∈ covering (lines.map loadLineinfo), Known pair := by
  rw [loadUnit]
  cases records : lines.map loadLineinfo with
  | nil =>
      exact iff_of_true ⟨_, rfl, enters_nothing _⟩
        fun pair member => absurd member List.not_mem_nil
  | cons cur rest =>
      rw [records] at formed
      rw [← debug.loadSources_length sources] at fits formed
      constructor
      · rintro ⟨after, loaded, _⟩
        exact known_of_loadLines fits loaded
      · intro known
        exact loadLines_enters fits (debug.loadSources_files sources).1 formed known

/-- A map to which an interval behind all others is added. -/
def joinLast (map : DebugMap) (interval : Interval) (set : List SourceInfo) : DebugMap :=
  map ++ [(interval, set)]

/-- Line 7 of the first file of a unit, at 100h, and the end of the sequence. -/
def oneLine (fileno : BitVec 64) : List DwarfLine :=
  [⟨some 7, some fileno, none, some 0x100, some false⟩,
    ⟨some 7, some fileno, none, some 0x104, some true⟩]

theorem loadUnit_enters_oneLine :
    ∃ after, loadUnit joinLast ⟨[], []⟩ [[97]] (oneLine 1) = some after ∧
      Enters joinLast (loadSources ⟨[], []⟩ [[97]]).1 after
        ((covering ((oneLine 1).map loadLineinfo)).map fun pair =>
          sourceInfo (loadSources ⟨[], []⟩ [[97]]).2 pair.1 pair.2) :=
  (loadUnit_enters_iff joinLast ⟨[], []⟩ [[97]] (oneLine 1) (by decide) (by decide)).mpr
    (by decide)

/-- A line of an unknown file. -/
theorem loadUnit_unknown :
    (∀ info ∈ (oneLine 0).map loadLineinfo, Formed 1 info) ∧
      loadUnit joinLast ⟨[], []⟩ [[97]] (oneLine 0) = none := by
  decide

end SourceDebug

end Ndse

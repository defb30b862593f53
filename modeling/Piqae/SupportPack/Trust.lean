/-
Piqae/SupportPack/Trust.lean

What the digest of a pack determines.  The hashed inventory is a sequence of
self-delimiting code words, one for each regular file except the detached
signature, so two packs with one digest have the same regular files with the
same contents.  The loader, however, reads what the manifest names, and the
manifest may name `SIGNATURE`: that file is read as a mapping file like any
other and nothing pins it.

The argument goes through the tree: `walk_output` says which paths an
inventory has, `read_eq` what a path text of the manifest reads.
-/
import Piqae.Lib.Code
import Piqae.SupportPack.Pack

namespace Piqae.SupportPack

open List

/-! ### The tree behind a path -/

namespace Entry

/-- The entry at a relative path. -/
def at? : Entry → List String → Option Entry
  | e, [] => some e
  | e, name :: rest => (e.child? name).bind fun child => child.at? rest

@[simp] theorem at?_nil (e : Entry) : e.at? [] = some e := by cases e <;> rfl

@[simp] theorem at?_cons (e : Entry) (name : String) (rest : List String) :
    e.at? (name :: rest) = (e.child? name).bind fun child => child.at? rest := by
  cases e <;> rfl

theorem child?_cons (name : OsStr) (entry : Entry) (entries : List (OsStr × Entry)) (n : String) :
    (directory ((name, entry) :: entries)).child? n =
      if name = .text n then some entry else (directory entries).child? n := by
  simp only [child?, List.find?_cons]
  by_cases h : name = .text n <;> simp [h]

theorem mem_names_of_child? {entries : List (OsStr × Entry)} {n : String} {e : Entry}
    (h : (directory entries).child? n = some e) : .text n ∈ entries.map Prod.fst := by
  obtain ⟨entry, hfind, -⟩ := Option.map_eq_some_iff.mp h
  have hname : entry.1 = .text n := by simpa using List.find?_some hfind
  exact hname ▸ mem_map_of_mem (mem_of_find?_eq_some hfind)

/-- Does the path text end in a segment that stays in a directory? -/
def endsInDot : List String → Bool
  | [] => false
  | [segment] => dotlike segment
  | _ :: rest => endsInDot rest

/-- The segments that name something. -/
def components (path : List String) : List String := path.filter (!dotlike ·)

theorem components_ne_nil {path : List String} (hne : path ≠ []) (h : endsInDot path = false) :
    components path ≠ [] := by
  induction path with
  | nil => exact absurd rfl hne
  | cons segment rest ih =>
    cases rest with
    | nil =>
      have : dotlike segment = false := h
      simp [components, this]
    | cons next rest =>
      obtain ⟨name, hname⟩ := exists_mem_of_ne_nil _ (ih (cons_ne_nil next rest) h)
      intro hnil
      have hmem : name ∈ components (segment :: next :: rest) := by
        have hname' := mem_filter.mp hname
        exact mem_filter.mpr ⟨mem_cons_of_mem _ hname'.1, hname'.2⟩
      rw [hnil] at hmem
      exact absurd hmem (not_mem_nil)

/-- What a path text reads: the contents of the entry its components lead to. -/
theorem read_eq (e : Entry) (path : List String) :
    e.read path = if endsInDot path then none else (e.at? (components path)).bind contents? := by
  induction path generalizing e with
  | nil => cases e <;> rfl
  | cons segment rest ih =>
    cases e with
    | directory entries =>
      by_cases hdot : dotlike segment
      · cases rest with
        | nil => simp [read, hdot, endsInDot, contents?]
        | cons =>
          have hrest := ih (directory entries)
          simpa [read, hdot, endsInDot, components] using hrest
      · have hends : endsInDot (segment :: rest) = endsInDot rest := by
          cases rest <;> simp [endsInDot, hdot]
        have hcomps : components (segment :: rest) = segment :: components rest := by
          simp [components, hdot]
        rw [hends, hcomps, at?_cons]
        cases hchild : (directory entries).child? segment with
        | none => simp [read, hdot, hchild]
        | some child => simpa [read, hdot, hchild] using ih child
    | file contents | symlink | special contents =>
      -- only a directory has a next segment
      all_goals
        by_cases hends : endsInDot (segment :: rest)
        · simp [read, hends]
        · obtain ⟨name, names, hnames⟩ := exists_cons_of_ne_nil
            (components_ne_nil (cons_ne_nil segment rest) (by simpa using hends))
          simp [read, hends, hnames, child?]

/-! ### Well-formed directories -/

/-- A name a directory can list. -/
def ProperName : OsStr → Prop
  | .text s => '/' ∉ s.toList ∧ dotlike s = false
  | .bytes _ => True

mutual

/-- Every directory below the entry lists proper names, each once. -/
def Proper : Entry → Prop
  | directory entries => ProperEntries entries
  | _ => True

def ProperEntries : List (OsStr × Entry) → Prop
  | [] => True
  | (name, entry) :: rest =>
    ProperName name ∧ name ∉ rest.map Prod.fst ∧ Proper entry ∧ ProperEntries rest

end

/-- Does the path not lead to a special file? -/
def ordinary (e : Entry) (relative : String) : Bool :=
  match e.at? (components (segments relative)) with
  | some (special _) => false
  | _ => true

variable {entries : List (OsStr × Entry)} {entry : OsStr × Entry}

theorem properEntries_mem (h : ProperEntries entries) (hmem : entry ∈ entries) :
    ProperName entry.1 ∧ Proper entry.2 := by
  induction entries with
  | nil => cases hmem
  | cons head rest ih =>
    obtain ⟨hname, -, hprop, hrest⟩ := h
    rcases mem_cons.mp hmem with rfl | hmem
    · exact ⟨hname, hprop⟩
    · exact ih hrest hmem

variable {e : Entry}

/-- The entry behind a child's name is one the directory lists. -/
theorem child?_listed {child : Entry} {n : String} (h : e.child? n = some child) :
    ∃ entries, e = directory entries ∧ (OsStr.text n, child) ∈ entries := by
  cases e with
  | directory entries =>
    obtain ⟨entry, hfind, rfl⟩ := Option.map_eq_some_iff.mp h
    have hname : entry.1 = .text n := by simpa using List.find?_some hfind
    exact ⟨entries, rfl, hname ▸ mem_of_find?_eq_some hfind⟩
  | file contents | symlink | special contents => cases h

variable {target : Entry} {path : List String} {dir : List OsStr}

theorem Proper.at? (h : e.Proper) (hat : e.at? path = some target) :
    ∀ name ∈ path, '/' ∉ name.toList ∧ dotlike name = false := by
  induction path generalizing e with
  | nil => nofun
  | cons name rest ih =>
    rw [at?_cons] at hat
    obtain ⟨child, hchild, hrest⟩ := Option.bind_eq_some_iff.mp hat
    obtain ⟨entries, rfl, hmem⟩ := child?_listed hchild
    obtain ⟨hname, hprop⟩ := properEntries_mem h hmem
    exact forall_mem_cons.mpr ⟨hname, ih hprop hrest⟩

theorem endsInDot_eq_false (h : ∀ name ∈ path, dotlike name = false) : endsInDot path = false := by
  induction path with
  | nil => rfl
  | cons name rest ih =>
    cases rest with
    | nil => exact h name (mem_cons_self ..)
    | cons => exact ih fun n hn => h n (mem_cons_of_mem _ hn)

/-- A path of names that lead somewhere is read as it stands. -/
theorem Proper.read (h : e.Proper) (hat : e.at? path = some target) :
    e.read path = target.contents? := by
  have hdot := fun name hname => (h.at? hat name hname).2
  have hcomps : components path = path := by
    rw [components, filter_eq_self]
    exact fun name hname => by simp [hdot name hname]
  rw [read_eq, endsInDot_eq_false hdot, hcomps, hat]
  rfl

end Entry

/-! ### The inventory lists the regular files -/

/-- Below `dir`, the entry has a regular file whose path is `relative`. -/
def Lists (dir : List OsStr) (e : Entry) (relative : List String) : Prop :=
  relative ≠ ["SIGNATURE"] ∧ ∃ path contents, relative.map OsStr.text = dir ++ path.map OsStr.text ∧
    e.at? path = some (.file contents)

section

variable {path : List OsStr} {relative : List String} {contents : List UInt8}

theorem toStr_eq_some :
    toStr path = some relative ↔ relative.map OsStr.text = path := by
  induction path generalizing relative with
  | nil => simp [toStr, eq_comm]
  | cons name rest ih =>
    cases name with
    | text s =>
      cases relative with
      | nil => simp [toStr]
      | cons => simp [toStr, ih, eq_comm, and_comm]
    | bytes b => cases relative <;> simp [toStr]

theorem addFile_output {found found' : Found} (h : addFile path contents found = .ok found') :
    relative ∈ found'.output ↔ relative ∈ found.output ∨ Lists path (.file contents) relative := by
  unfold addFile at h
  dsimp only at h
  split_ifs at h
  split at h
  · cases h
  rename_i text htext
  split_ifs at h
  cases h
  have hpath := toStr_eq_some.mp htext
  have hlists : Lists path (.file contents) relative ↔
      relative ≠ ["SIGNATURE"] ∧ relative = text := by
    constructor
    · rintro ⟨hne, names, file, hmap, hat⟩
      cases names with
      | nil =>
        refine ⟨hne, map_injective_iff.mpr (fun _ _ heq => OsStr.text.inj heq) ?_⟩
        simpa [hpath] using hmap
      | cons => simp [Entry.child?] at hat
    · rintro ⟨hne, rfl⟩
      exact ⟨hne, [], contents, by simpa using hpath, rfl⟩
  rw [hlists, listed]
  split
  · rename_i hsig
    simp only [hsig, iff_self_or, and_imp]
    exact fun hne heq => absurd heq hne
  · rename_i hsig
    simp only [mem_append, mem_singleton]
    exact or_congr_right ⟨fun heq => ⟨heq ▸ hsig, heq⟩, fun heq => heq.2⟩

/-- A directory lists what its first entry lists and what the others do. -/
theorem lists_cons {name : OsStr} {entry : Entry} (hname : name ∉ entries.map Prod.fst) :
    Lists dir (.directory ((name, entry) :: entries)) relative ↔
      Lists (dir ++ [name]) entry relative ∨ Lists dir (.directory entries) relative := by
  constructor
  · rintro ⟨hne, path, contents, hmap, hat⟩
    cases path with
    | nil => cases hat
    | cons n path =>
      rw [Entry.at?_cons, Entry.child?_cons] at hat
      split at hat
      · rename_i hn
        exact .inl ⟨hne, path, contents, by simpa [hn] using hmap, by simpa using hat⟩
      · exact .inr ⟨hne, n :: path, contents, hmap, by rwa [Entry.at?_cons]⟩
  · rintro (⟨hne, path, contents, hmap, hat⟩ | ⟨hne, path, contents, hmap, hat⟩)
    · have hmem : name ∈ relative.map OsStr.text := by simp [hmap]
      obtain ⟨n, -, rfl⟩ := mem_map.mp hmem
      refine ⟨hne, n :: path, contents, by simpa using hmap, ?_⟩
      rw [Entry.at?_cons, Entry.child?_cons, if_pos rfl]
      simpa using hat
    · cases path with
      | nil => cases hat
      | cons n path =>
        rw [Entry.at?_cons] at hat
        obtain ⟨child, hchild, hrest⟩ := Option.bind_eq_some_iff.mp hat
        have hother : name ≠ .text n := fun heq =>
          hname (heq ▸ Entry.mem_names_of_child? hchild)
        refine ⟨hne, n :: path, contents, hmap, ?_⟩
        rw [Entry.at?_cons, Entry.child?_cons, if_neg hother, hchild]
        exact hrest

mutual

theorem walk_output : {entries : List (OsStr × Entry)} →
    {found found' : Found} → Entry.ProperEntries entries → walk dir entries found = .ok found' →
    (relative ∈ found'.output ↔
      relative ∈ found.output ∨ Lists dir (.directory entries) relative)
  | [], found, found', _, h => by
    cases h
    simp only [Lists, iff_self_or]
    rintro ⟨-, path, contents, -, hat⟩
    cases path <;> cases hat
  | (name, entry) :: rest, found, found', hprop, h => by
    obtain ⟨-, hname, hent, hrest⟩ := hprop
    rw [walk] at h
    obtain ⟨middle, hmiddle, h⟩ := Except.bind_eq_ok h
    rw [walk_output hrest h, walkEntry_output hent hmiddle, lists_cons hname, or_assoc]

theorem walkEntry_output {path : List OsStr} : {entry : Entry} → {found found' : Found} →
    entry.Proper → walkEntry path entry found = .ok found' →
    (relative ∈ found'.output ↔ relative ∈ found.output ∨ Lists path entry relative)
  | .symlink, _, _, _, h => by cases h
  | .directory entries, found, found', hprop, h => walk_output hprop h
  | .file contents, found, found', _, h => addFile_output h
  | .special contents, found, found', _, h => by
    cases h
    simp only [Lists, iff_self_or]
    rintro ⟨-, names, file, -, hat⟩
    cases names <;> cases hat

end

end

variable {root : Entry} {files : List (List String)}

theorem inventory_output (hprop : root.Proper) (h : inventory root = .ok files)
    {relative : List String} : relative ∈ files ↔ Lists [] root relative := by
  cases root with
  | directory entries =>
    rw [inventory] at h
    obtain ⟨found, hfound, h⟩ := Except.bind_eq_ok h
    cases h
    rw [mem_insertionSort, walk_output hprop hfound]
    simp
  | file contents | symlink | special contents => cases h

/-! ### The digest determines the regular files -/

/-- A pack directory: a tree of proper names whose paths and files fit in memory. -/
structure PackDirectory where
  root : Entry
  proper : root.Proper
  short : ∀ path contents, root.at? path = some (.file contents) →
    (asBytes (pathText path)).length < 2 ^ 64 ∧ contents.length < 2 ^ 64

namespace PackDirectory

/-- The pack has this regular file, and the inventory lists it. -/
def HasFile (P : PackDirectory) (relative : List String) (contents : List UInt8) : Prop :=
  relative ≠ ["SIGNATURE"] ∧ P.root.at? relative = some (.file contents)

theorem lists_nil {P : PackDirectory} {relative : List String} :
    Lists [] P.root relative ↔ ∃ contents, P.HasFile relative contents := by
  constructor
  · rintro ⟨hne, path, contents, hmap, hat⟩
    have hpath : relative = path :=
      map_injective_iff.mpr (fun _ _ heq => OsStr.text.inj heq) (by simpa using hmap)
    subst hpath
    exact ⟨contents, hne, hat⟩
  · rintro ⟨contents, hne, hat⟩
    exact ⟨hne, relative, contents, rfl, hat⟩

end PackDirectory

theorem segments_pathText (hne : path ≠ []) (hslash : ∀ name ∈ path, '/' ∉ name.toList) :
    segments (pathText path) = path := by
  have hsplit : (['/'].intercalate (path.map String.toList)).splitOn '/' =
      path.map String.toList := by
    refine splitOn_intercalate '/' (fun l hl => ?_) (by simpa using hne)
    obtain ⟨name, hname, rfl⟩ := mem_map.mp hl
    exact hslash name hname
  simp [segments, pathText, hsplit]

theorem pathText_segments (text : String) : pathText (segments text) = text := by
  have hjoin : ['/'].intercalate (text.toList.splitOn '/') = text.toList :=
    intercalate_splitOn '/'
  simp [segments, pathText, hjoin]

/-- What the hashed inventory can hold: a path without slashes in its names, and
lengths of eight bytes. -/
def Hashable (file : List String × List UInt8) : Prop :=
  (file.1 ≠ [] ∧ ∀ name ∈ file.1, '/' ∉ name.toList) ∧
    (asBytes (pathText file.1)).length < 2 ^ 64 ∧ file.2.length < 2 ^ 64

theorem selfDelimiting_toBeBytes : SelfDelimiting (· < 2 ^ 64) toBeBytes :=
  .of_length (fun n _ => length_toBeBytes n) fun _ _ => toBeBytes_injective

theorem selfDelimiting_hashedFile :
    SelfDelimiting Hashable fun file => hashedFile file.1 file.2 := by
  intro a b ha hb r s h
  obtain ⟨⟨hane, haslash⟩, hapath, hacontents⟩ := ha
  obtain ⟨⟨hbne, hbslash⟩, hbpath, hbcontents⟩ := hb
  have hframe := selfDelimiting_toBeBytes.framed
  have hpair := (hframe.pair hframe) (a := (asBytes (pathText a.1), a.2))
    (b := (asBytes (pathText b.1), b.2)) ⟨hapath, hacontents⟩ ⟨hbpath, hbcontents⟩ h
  obtain ⟨hfile, hrest⟩ := hpair
  have hpath : a.1 = b.1 := by
    have htext := asBytes_injective (Prod.mk.inj hfile).1
    rw [← segments_pathText hane haslash, ← segments_pathText hbne hbslash, htext]
  exact ⟨Prod.ext hpath (Prod.mk.inj hfile).2, hrest⟩

theorem hashedFile_ne_nil {relative : List String} {contents : List UInt8} :
    hashedFile relative contents ≠ [] := by
  intro h
  have hlen := congrArg List.length h
  simp [hashedFile] at hlen

variable {bytes : List UInt8}

/-- The hashed bytes are the files one after the other. -/
theorem hashedFiles_ok (h : hashedFiles root files = .ok bytes) :
    ∃ hashed : List (List String × List UInt8), hashed.map Prod.fst = files ∧
      (∀ file ∈ hashed, root.read file.1 = some file.2) ∧
      bytes = hashed.flatMap fun file => hashedFile file.1 file.2 := by
  induction files generalizing bytes with
  | nil =>
    cases h
    exact ⟨[], rfl, by simp, rfl⟩
  | cons relative rest ih =>
    rw [hashedFiles] at h
    split at h
    · cases h
    rename_i contents hread
    obtain ⟨tail, htail, h⟩ := Except.bind_eq_ok h
    cases h
    obtain ⟨hashed, rfl, hreads, rfl⟩ := ih htail
    exact ⟨(relative, contents) :: hashed, rfl, forall_mem_cons.mpr ⟨hread, hreads⟩, rfl⟩

variable {P : PackDirectory} {Q : PackDirectory}

/-- The listed files of a pack and its hashed bytes. -/
theorem PackDirectory.hashed (hfiles : inventory P.root = .ok files)
    (hbytes : hashedFiles P.root files = .ok bytes) :
    ∃ hashed : List (List String × List UInt8),
      (∀ relative contents, (relative, contents) ∈ hashed ↔ P.HasFile relative contents) ∧
      (∀ file ∈ hashed, Hashable file) ∧
      bytes = hashed.flatMap fun file => hashedFile file.1 file.2 := by
  obtain ⟨hashed, hmap, hreads, hflat⟩ := hashedFiles_ok hbytes
  have hlisted : ∀ relative, relative ∈ files ↔ ∃ contents, P.HasFile relative contents :=
    fun _ => (inventory_output P.proper hfiles).trans lists_nil
  have hfile : ∀ relative contents, (relative, contents) ∈ hashed ↔
      P.HasFile relative contents := by
    intro relative contents
    constructor
    · intro hmem
      have hrel : relative ∈ files := hmap ▸ mem_map_of_mem hmem
      obtain ⟨actual, hne, hat⟩ := (hlisted relative).mp hrel
      have hread := hreads _ hmem
      rw [P.proper.read hat] at hread
      exact ⟨hne, by rw [hat]; exact congrArg (some ∘ Entry.file) (Option.some.inj hread)⟩
    · intro hhas
      have hrel : relative ∈ files := (hlisted relative).mpr ⟨contents, hhas⟩
      obtain ⟨⟨r, c⟩, hmem, rfl⟩ := mem_map.mp (hmap ▸ hrel)
      have hread := hreads _ hmem
      rw [P.proper.read hhas.2] at hread
      exact (Option.some.inj hread) ▸ hmem
  refine ⟨hashed, hfile, ?_, hflat⟩
  rintro ⟨relative, contents⟩ hmem
  obtain ⟨-, hat⟩ := (hfile relative contents).mp hmem
  obtain ⟨hpath, hcnts⟩ := P.short relative contents hat
  refine ⟨⟨?_, fun name hname => (P.proper.at? hat name hname).1⟩, hpath, hcnts⟩
  rintro rfl
  -- the root itself is a directory
  cases hroot : P.root with
  | directory entries => simp [hroot] at hat
  | file c | symlink | special c => rw [hroot] at hfiles; cases hfiles

/-- Two packs with one digest have the same listed files. -/
theorem hasFile_iff_of_digest {Digest : Type} {sha256 : List UInt8 → Digest}
    (hsha : Function.Injective sha256) {files' : List (List String)} {digest : Digest}
    (hP : inventory P.root = .ok files) (hQ : inventory Q.root = .ok files')
    (hdig : canonicalDigest sha256 P.root files = .ok digest)
    (hdig' : canonicalDigest sha256 Q.root files' = .ok digest) (relative : List String)
    (contents : List UInt8) : P.HasFile relative contents ↔ Q.HasFile relative contents := by
  obtain ⟨bytes, hbytes, rfl⟩ := Except.map_eq_ok hdig
  obtain ⟨bytes', hbytes', heq⟩ := Except.map_eq_ok hdig'
  obtain ⟨hashed, hfile, hhashable, rfl⟩ := PackDirectory.hashed hP hbytes
  obtain ⟨hashed', hfile', hhashable', rfl⟩ := PackDirectory.hashed hQ hbytes'
  have hsame : hashed = hashed' :=
    selfDelimiting_hashedFile.flatMap_injective (fun _ _ => hashedFile_ne_nil)
      hhashable hhashable' (hsha heq.symm)
  rw [← hfile, ← hfile', hsame]

/-! ### What the loader reads -/

variable {relative : String}

/-- A safe path whose components are just the signature's name is that name. -/
theorem eq_signature (hsafe : safeChild relative = .ok path)
    (hends : Entry.endsInDot path = false) (hcomps : Entry.components path = ["SIGNATURE"]) :
    relative = "SIGNATURE" := by
  unfold safeChild at hsafe
  split_ifs at hsafe with hunsafe
  obtain ⟨habsolute, hcur, -⟩ := not_or.mp hunsafe |>.imp_right not_or.mp
  cases hsafe
  have htext : relative = pathText (segments relative) := (pathText_segments relative).symm
  cases hsegs : segments relative with
  | nil => simp [hsegs, Entry.components] at hcomps
  | cons head rest =>
    rw [hsegs] at hends hcomps htext hcur
    cases rest with
    | nil =>
      have hhead : [head] = ["SIGNATURE"] := by
        have hdot : Entry.dotlike head = false := hends
        simpa [Entry.components, hdot] using hcomps
      rw [htext, hhead]
      decide
    | cons next rest =>
      -- a first segment that names nothing makes the path absolute or starts it with a dot
      have hhead : Entry.dotlike head = false := by
        by_contra hdot
        rcases (by simpa [Entry.dotlike, or_iff_not_imp_left] using hdot :
            head = "" ∨ head = ".") with rfl | rfl
        · exact habsolute (by rw [htext]; simp [pathText, List.intercalate])
        · exact hcur rfl
      have hrest : Entry.components (next :: rest) = [] := by
        simpa [Entry.components, hhead] using congrArg List.tail hcomps
      exact absurd hrest (Entry.components_ne_nil (cons_ne_nil next rest) hends)

theorem safeChild_ok (h : safeChild relative = .ok path) : path = segments relative := by
  unfold safeChild at h
  split_ifs at h
  · exact (Except.ok.inj h).symm

/-- A file the manifest names, other than the signature, is one the digest covers. -/
theorem read_agrees (hord : P.root.ordinary relative = true)
    (hsame : ∀ relative contents, P.HasFile relative contents → Q.HasFile relative contents)
    (hsafe : safeChild relative = .ok path) (hne : relative ≠ "SIGNATURE")
    (hread : P.root.read path = some bytes) : Q.root.read path = some bytes := by
  rw [Entry.read_eq] at hread ⊢
  split_ifs at hread with hends
  obtain ⟨target, hat, hcnts⟩ := Option.bind_eq_some_iff.mp hread
  have htgt : target = .file bytes := by
    cases target with
    | file => exact congrArg Entry.file (Option.some.inj hcnts)
    | special =>
      rw [safeChild_ok hsafe] at hat
      simp [Entry.ordinary, hat] at hord
    | directory entries | symlink => cases hcnts
  have hnotSignature : Entry.components path ≠ ["SIGNATURE"] := fun heq =>
    hne (eq_signature hsafe (by simpa using hends) heq)
  obtain ⟨-, hatQ⟩ := hsame _ _ ⟨hnotSignature, htgt ▸ hat⟩
  rw [if_neg hends, hatQ]
  rfl

/-- The mapping rules a path of the manifest leads to. -/
def rulesAt (formats : Formats) (root : Entry) (relative : String) : Option (List MappingRule) :=
  ((root.read (segments relative)).bind formats.mapping).map MappingFile.rules

theorem readJson_ok {α : Type} {decode : List UInt8 → Option α} {a : α}
    (h : readJson decode root path = .ok a) :
    ∃ bytes, root.read path = some bytes ∧ decode bytes = some a := by
  unfold readJson at h
  split at h
  · cases h
  rename_i bytes hread
  split at h
  · cases h
  rename_i a' hdec
  cases h
  exact ⟨bytes, hread, hdec⟩

/-- A load succeeds when every named file is safe and read, and appends their rules. -/
theorem loadMappings_ok {formats : Formats} {mappings : List String} {rules : List MappingRule}
    (h : loadMappings formats root mappings = .ok rules) :
    (∀ relative ∈ mappings, ∃ path bytes rules, safeChild relative = .ok path ∧
      root.read path = some bytes ∧ rulesAt formats root relative = some rules) ∧
    rules = mappings.flatMap fun relative => (rulesAt formats root relative).getD [] := by
  induction mappings generalizing rules with
  | nil =>
    cases h
    exact ⟨by simp, rfl⟩
  | cons relative rest ih =>
    rw [loadMappings] at h
    obtain ⟨path, hsafe, h⟩ := Except.bind_eq_ok h
    obtain ⟨mapping, hmapping, h⟩ := Except.bind_eq_ok h
    obtain ⟨-, -, h⟩ := Except.bind_eq_ok h
    obtain ⟨tail, htail, h⟩ := Except.bind_eq_ok h
    cases h
    obtain ⟨bytes, hread, hdec⟩ := readJson_ok hmapping
    obtain ⟨hreads, rfl⟩ := ih htail
    have hrules : rulesAt formats root relative = some mapping.rules := by
      rw [rulesAt, ← safeChild_ok hsafe, hread, Option.bind_some, hdec, Option.map_some]
    refine ⟨forall_mem_cons.mpr ⟨?_, hreads⟩, by simp [hrules]⟩
    exact ⟨path, bytes, mapping.rules, hsafe, hread, hrules⟩

/-- What a successful load has read. -/
theorem loadPack_ok {Digest Key : Type} [DecidableEq Digest] {sha256 : List UInt8 → Digest}
    {verify : Key → Digest → List UInt8 → Bool} {formats : Formats}
    {trust : TrustPolicy Digest Key} {pack : LoadedPack Digest}
    (h : loadPack sha256 verify formats root trust = .ok pack) :
    ∃ files, inventory root = .ok files ∧ canonicalDigest sha256 root files = .ok pack.digest ∧
      readJson formats.manifest root ["manifest.json"] = .ok pack.manifest ∧
      loadMappings formats root pack.manifest.mappings = .ok pack.mappings ∧
      validateConformance formats root pack.manifest pack.mappings = .ok () := by
  obtain ⟨files, hfiles, h⟩ := Except.bind_eq_ok h
  obtain ⟨digest, hdig, h⟩ := Except.bind_eq_ok h
  obtain ⟨-, -, h⟩ := Except.bind_eq_ok h
  obtain ⟨⟨manifest, mappings⟩, htr, h⟩ := Except.bind_eq_ok h
  cases h
  obtain ⟨manifest', hman, htr⟩ := Except.bind_eq_ok htr
  obtain ⟨-, -, htr⟩ := Except.bind_eq_ok htr
  obtain ⟨mappings', hmappings, htr⟩ := Except.bind_eq_ok htr
  obtain ⟨-, -, htr⟩ := Except.bind_eq_ok htr
  obtain ⟨-, -, htr⟩ := Except.bind_eq_ok htr
  obtain ⟨⟨⟩, hconf, htr⟩ := Except.bind_eq_ok htr
  obtain ⟨-, -, htr⟩ := Except.bind_eq_ok htr
  cases htr
  exact ⟨files, hfiles, hdig, hman, hmappings, hconf⟩

/-! ### What the digest determines -/

section

variable {α β : Type} [DecidableEq α] {f g : α → List β} {x : α} {l : List α}

theorem length_flatMap_add (h : ∀ y ∈ l, y ≠ x → f y = g y) :
    (l.flatMap f).length + l.count x * (g x).length =
      (l.flatMap g).length + l.count x * (f x).length := by
  induction l with
  | nil => simp
  | cons y l ih =>
    have hrest := ih fun z hz => h z (mem_cons_of_mem _ hz)
    by_cases hy : y = x
    · subst hy
      simp only [flatMap_cons, length_append, count_cons_self, Nat.succ_mul]
      omega
    · have hfg := h y (mem_cons_self ..) hy
      simp only [flatMap_cons, length_append, count_cons_of_ne hy, hfg]
      omega

omit [DecidableEq α] in
theorem eq_of_flatMap_eq (hlen : ∀ y ∈ l, (f y).length = (g y).length)
    (heq : l.flatMap f = l.flatMap g) (hx : x ∈ l) : f x = g x := by
  induction l with
  | nil => cases hx
  | cons y l ih =>
    obtain ⟨hhead, htail⟩ := append_inj heq (hlen y (mem_cons_self ..))
    rcases mem_cons.mp hx with rfl | hx
    · exact hhead
    · exact ih (fun z hz => hlen z (mem_cons_of_mem _ hz)) htail hx

/-- If two families of lists differ at most at `x`, the concatenations along a list that
has `x` are equal just when they agree there. -/
theorem flatMap_eq_iff (h : ∀ y ∈ l, y ≠ x → f y = g y) :
    l.flatMap f = l.flatMap g ↔ (x ∈ l → f x = g x) := by
  constructor
  · intro heq hx
    have hlen : (f x).length = (g x).length := by
      have hcnt := length_flatMap_add h
      rw [heq] at hcnt
      exact (Nat.eq_of_mul_eq_mul_left (count_pos_iff.mpr hx) (by omega)).symm
    refine eq_of_flatMap_eq (fun y hy => ?_) heq hx
    by_cases hyx : y = x
    · exact hyx ▸ hlen
    · exact congrArg List.length (h y hy hyx)
  · intro hx
    refine flatMap_congr fun y hy => ?_
    by_cases hyx : y = x
    · exact hyx ▸ hx (hyx ▸ hy)
    · exact h y hy hyx

end

section

variable {Digest Key : Type} [DecidableEq Digest]

/-- If SHA-256 has no collision, a pack that does not name a special file and any pack that
loads with the same digest have one manifest, and the same mapping rules unless the manifest
names the signature file as a mapping and the two signature files hold different rules. -/
theorem loaded_pack_determined_by_digest (sha256 : List UInt8 → Digest)
    (hsha : Function.Injective sha256) (verify : Key → Digest → List UInt8 → Bool)
    (formats : Formats) (trust trust' : TrustPolicy Digest Key) (P Q : PackDirectory)
    (p q : LoadedPack Digest)
    (hP : ∀ relative ∈ "manifest.json" :: p.manifest.mappings, relative ≠ "SIGNATURE" →
      P.root.ordinary relative = true)
    (hp : loadPack sha256 verify formats P.root trust = .ok p)
    (hq : loadPack sha256 verify formats Q.root trust' = .ok q) (hdigest : p.digest = q.digest) :
    (p.manifest = q.manifest ∧ p.mappings = q.mappings) ↔
      ("SIGNATURE" ∈ p.manifest.mappings →
        rulesAt formats P.root "SIGNATURE" = rulesAt formats Q.root "SIGNATURE") := by
  obtain ⟨files, hfiles, hdigestP, hmanifestP, hmappingsP, -⟩ := loadPack_ok hp
  obtain ⟨files', hfiles', hdigestQ, hmanifestQ, hmappingsQ, -⟩ := loadPack_ok hq
  have hsame := hasFile_iff_of_digest hsha hfiles hfiles' hdigestP (hdigest ▸ hdigestQ)
  have hagree : ∀ {relative : String} {path : List String} {bytes : List UInt8},
      relative ∈ "manifest.json" :: p.manifest.mappings → safeChild relative = .ok path →
      relative ≠ "SIGNATURE" → P.root.read path = some bytes → Q.root.read path = some bytes :=
    fun hrel hsafe hne => read_agrees (hP _ hrel hne)
      (fun relative contents => (hsame relative contents).mp) hsafe hne
  have hman : p.manifest = q.manifest := by
    obtain ⟨bytes, hread, hdec⟩ := readJson_ok hmanifestP
    obtain ⟨bytes', hread', hdec'⟩ := readJson_ok hmanifestQ
    have hagreed := @hagree "manifest.json" _ _ mem_cons_self (by decide) (by decide) hread
    rw [hread', Option.some.injEq] at hagreed
    rw [hagreed, hdec, Option.some.injEq] at hdec'
    exact hdec'
  rw [← hman] at hmappingsQ
  obtain ⟨hreadsP, hrulesP⟩ := loadMappings_ok hmappingsP
  obtain ⟨hreadsQ, hrulesQ⟩ := loadMappings_ok hmappingsQ
  have hother : ∀ relative ∈ p.manifest.mappings, relative ≠ "SIGNATURE" →
      (rulesAt formats P.root relative).getD [] = (rulesAt formats Q.root relative).getD [] := by
    intro relative hrel hne
    obtain ⟨path, bytes, -, hsafe, hread, -⟩ := hreadsP relative hrel
    have hreadQ := hagree (mem_cons_of_mem _ hrel) hsafe hne hread
    rw [safeChild_ok hsafe] at hread hreadQ
    rw [rulesAt, rulesAt, hread, hreadQ]
  have hsig : "SIGNATURE" ∈ p.manifest.mappings →
      ((rulesAt formats P.root "SIGNATURE").getD [] =
          (rulesAt formats Q.root "SIGNATURE").getD [] ↔
        rulesAt formats P.root "SIGNATURE" = rulesAt formats Q.root "SIGNATURE") := by
    intro hmem
    obtain ⟨-, -, rules, -, -, hrules⟩ := hreadsP _ hmem
    obtain ⟨-, -, rules', -, -, hrules'⟩ := hreadsQ _ hmem
    simp [hrules, hrules']
  calc p.manifest = q.manifest ∧ p.mappings = q.mappings
      ↔ p.mappings = q.mappings := and_iff_right hman
    _ ↔ ("SIGNATURE" ∈ p.manifest.mappings →
          (rulesAt formats P.root "SIGNATURE").getD [] =
            (rulesAt formats Q.root "SIGNATURE").getD []) := by
        rw [hrulesP, hrulesQ]
        exact flatMap_eq_iff hother
    _ ↔ _ := forall_congr' hsig

end

/-! ### Two packs that differ in their signature file -/

namespace Sample

def rule (unknown : String) : MappingRule where
  platform := .windows
  nativeCapabilityKey := "display-safe-option"
  semanticFacet := "media.sensing"
  choices := (SortedMap.empty.insert "Native A" "gap").insert "Native B" unknown

def manifest (mapping : String) : Manifest where
  schemaVersion := 1
  packId := "pack.example"
  packVersion := "1.0.0"
  vendor := "Example"
  family := "Example 100"
  maintainers := ["Example Maintainer"]
  selectors := []
  adapterSelectors := [⟨.windows, "com.example.print-adapter", "5.4.0", none, none⟩]
  nativeLanguageProfiles := []
  platforms := [.windows]
  facets := ["media.sensing"]
  evidence := .replayTested
  mappings := [mapping]
  conformance := ["conformance.json"]
  fixtures := []
  license := "Apache-2.0"

def conformance : ConformanceFile where
  schemaVersion := 1
  cases :=
    [⟨"maps", .windows, "display-safe-option", "Native A", some "media.sensing", some "gap", none⟩,
      ⟨"unknown", .windows, "display-safe-option", "Other", none, none,
        some "unsupported_native_choice"⟩]

/-- The files of the packs; their JSON texts are abbreviated to a byte or two. -/
def manifestFile (mapping : String) : List UInt8 := if mapping = "SIGNATURE" then [1] else [1, 1]

def mappingFile (unknown : String) : List UInt8 := if unknown = "continuous" then [2] else [2, 2]

def conformanceFile : List UInt8 := [3]

/-- The decoders, on the files of the packs. -/
def formats : Formats where
  manifest bytes := ["options.json", "SIGNATURE"].findSome? fun mapping =>
    if bytes = manifestFile mapping then some (manifest mapping) else none
  mapping bytes := ["black_mark", "continuous"].findSome? fun unknown =>
    if bytes = mappingFile unknown then some ⟨1, [rule unknown]⟩ else none
  conformance bytes := if bytes = conformanceFile then some conformance else none
  value _ := none

/-- A pack of four entries: the mapping file its manifest names, its options file, and what
its signature file holds. -/
def entries (mapping : String) (options : Entry) (signature : String) : List (OsStr × Entry) :=
  [(.text "manifest.json", .file (manifestFile mapping)),
    (.text "options.json", options),
    (.text "conformance.json", .file conformanceFile),
    (.text "SIGNATURE", .file (mappingFile signature))]

/-- A regular file with the mapping rules, and a pipe that delivers them. -/
def optionsFile (unknown : String) : Entry := .file (mappingFile unknown)

def optionsPipe (unknown : String) : Entry := .special (mappingFile unknown)

/-- Does the entry fit in memory, and is it no directory? -/
def small : OsStr × Entry → Bool
  | (.text name, .file contents) =>
    (asBytes (pathText [name])).length < 2 ^ 64 && contents.length < 2 ^ 64
  | (.text _, .special _) => true
  | _ => false

theorem at?_small {entries : List (OsStr × Entry)} (hsmall : entries.all small = true)
    {path : List String} {contents : List UInt8}
    (h : (Entry.directory entries).at? path = some (.file contents)) :
    (asBytes (pathText path)).length < 2 ^ 64 ∧ contents.length < 2 ^ 64 := by
  cases path with
  | nil => cases h
  | cons name rest =>
    rw [Entry.at?_cons] at h
    obtain ⟨child, hchild, hrest⟩ := Option.bind_eq_some_iff.mp h
    obtain ⟨_, heq, hmem⟩ := Entry.child?_listed hchild
    cases heq
    have hent := all_eq_true.mp hsmall _ hmem
    cases child with
    | file c =>
      cases rest with
      | nil => cases hrest; simpa [small] using hent
      | cons => simp [Entry.child?] at hrest
    | special c => cases rest <;> simp [Entry.child?] at hrest
    | directory l | symlink => simp [small] at hent

/-- The pack in the directory with these entries. -/
def pack (entries : List (OsStr × Entry)) (hproper : Entry.ProperEntries entries)
    (hsmall : entries.all small = true) : PackDirectory where
  root := .directory entries
  proper := hproper
  short _ _ h := at?_small hsmall h

/-- The bytes of the inventory stand for their hash. -/
def digest (entries : List (OsStr × Entry)) : List UInt8 :=
  ((inventory (.directory entries) >>= canonicalDigest id (.directory entries)).toOption).getD []

/-- Load under a policy that trusts no key and pins the digest of one pack. -/
def load (entries pinned : List (OsStr × Entry)) : Except PackError (LoadedPack (List UInt8)) :=
  loadPack id (fun (_ : Unit) _ _ => false) formats (.directory entries) ⟨[digest pinned], []⟩

/-- A pack whose manifest names its signature file, and one that names a pipe. -/
def signed (unknown : String) : List (OsStr × Entry) :=
  entries "SIGNATURE" (optionsFile "black_mark") unknown

def piped (unknown : String) : List (OsStr × Entry) :=
  entries "options.json" (optionsPipe unknown) "black_mark"

/-- A pack whose manifest names a regular file, with a pipe that it does not name. -/
def plain (signature : String) : List (OsStr × Entry) :=
  (.text "pipe", optionsPipe signature) ::
    entries "options.json" (optionsFile "black_mark") signature

theorem proper_plain (signature : String) : Entry.ProperEntries (plain signature) := by
  simp [plain, entries, optionsFile, optionsPipe, Entry.ProperEntries, Entry.ProperName,
    Entry.Proper, Entry.dotlike]

end Sample

open Sample

/-- Under one policy, and with one digest, packs that differ only in their signature file load
with different rules, and so do packs that differ only in what a pipe delivers. -/
theorem signature_rules_not_pinned :
    (∀ unknown ∈ ["black_mark", "continuous"],
      load (signed unknown) (signed "black_mark") =
        .ok ⟨manifest "SIGNATURE", [rule unknown],
          digest (signed "black_mark")⟩) ∧
    (∀ unknown ∈ ["black_mark", "continuous"],
      load (piped unknown) (piped "black_mark") =
        .ok ⟨manifest "options.json", [rule unknown],
          digest (piped "black_mark")⟩) ∧
    rule "black_mark" ≠ rule "continuous" := by
  decide +kernel

/-- The rules of a pack that names a regular file do not depend on its signature file. -/
theorem loaded_pack_determined_by_digest_plain :
    ∃ p q, load (plain "black_mark") (plain "black_mark") = .ok p ∧
      load (plain "continuous") (plain "black_mark") = .ok q ∧
      p.digest = q.digest ∧ p.manifest = q.manifest ∧ p.mappings = q.mappings := by
  have hload : ∀ signature ∈ ["black_mark", "continuous"],
      load (plain signature) (plain "black_mark") =
        .ok ⟨manifest "options.json", [rule "black_mark"],
          digest (plain "black_mark")⟩ := by decide +kernel
  have hp := hload "black_mark" (by simp)
  have hq := hload "continuous" (by simp)
  have hord : ∀ relative ∈ ["manifest.json", "options.json"], relative ≠ "SIGNATURE" →
      (Entry.directory (plain "black_mark")).ordinary relative = true := by decide +kernel
  exact ⟨_, _, hp, hq, rfl, (loaded_pack_determined_by_digest id Function.injective_id _ _ _ _
    (pack (plain "black_mark") (proper_plain _) (by decide +kernel))
    (pack (plain "continuous") (proper_plain _) (by decide +kernel))
    _ _ hord hp hq rfl).mpr (by simp [manifest])⟩

end Piqae.SupportPack

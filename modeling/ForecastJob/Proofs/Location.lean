import ForecastJob.Format
import ForecastJob.Proofs.Schema.Independence

/-!
# Where data inputs are found

A path is followed component by component: from the root if it is absolute, then through the pieces
that count. A relative path of a data input is followed from the directory of its document, unless a
point and two slashes at its front lead to the root.

* `Location.components` : the components of a path;
* `Location.components_join` : those of a path within a directory;
* `Location.components_directory` : those of the directory of a file;
* `Location.origin` : where a relative path is followed from;
* `Job.exists_input_of_ofFile` : the data inputs of a file;
* `Location.components_resolve` : the components of a path as it is seen from a directory, and of
  the paths of a file;
* `Location.components_resolve_ne` : a path that leaves its directory.
-/

namespace ForecastJob

namespace Location

/-- The pieces that count. -/
def counting (ps : List String) : List String :=
  ps.filter fun piece => !isSilent piece

/-- The pieces of a path that count. -/
def names (path : String) : List String :=
  counting (pieces path)

/-- The components of a path: the root if it starts there, and the pieces that count. -/
def components (path : String) : List String :=
  if isAbsolute path then "/" :: names path else names path

/-- The path depends on a directory: it is not bound, no URI, no reference to an asset, and not
absolute. -/
structure IsRelative (path : String) : Prop where
  bound : Binding.isBound path = false
  scheme : ¬ "://".toList <:+: path.toList
  asset : path.startsWith "azureml:" = false
  absolute : isAbsolute path = false

theorem isRelative_iff {path : String} : IsRelative path ↔ isFixed path = false := by
  rw [isFixed_eq_false_iff]
  constructor
  · rintro ⟨hbound, hscheme, hasset, habsolute⟩
    exact ⟨hbound, hscheme, hasset, habsolute⟩
  · rintro ⟨hbound, hscheme, hasset, habsolute⟩
    exact ⟨hbound, hscheme, hasset, habsolute⟩

/-! ## Pieces -/

theorem pieces_eq (path : String) : pieces path = (path.toList.splitOn '/').map String.ofList := by
  have hsplit : ∀ cs : List Char, Text.pieces (· == '/') cs = cs.splitOn '/' := by
    intro cs
    induction cs with
    | nil => rfl
    | cons c cs ih =>
      rw [Text.pieces, List.splitOn_cons_eq_if_modifyHead, ih]
      split
      · rfl
      · cases h : cs.splitOn '/' with
        | nil => exact absurd h (List.splitOn_ne_nil _ _)
        | cons w ws => rfl
  rw [pieces, hsplit]

/-- A slash ends a piece. -/
theorem pieces_slash (a b : String) : pieces (a ++ "/" ++ b) = pieces a ++ pieces b := by
  have hlist : (a ++ "/" ++ b).toList = a.toList ++ '/' :: b.toList := by
    rw [String.toList_append, String.toList_append, List.append_assoc]
    rfl
  rw [pieces_eq, pieces_eq, pieces_eq, hlist, List.splitOn_append_cons_self, List.map_append]

theorem pieces_ne_nil (path : String) : pieces path ≠ [] := by
  rw [pieces_eq]
  simp

/-- There is no slash in a piece. -/
theorem slash_notMem_of_mem_pieces {path piece : String} (h : piece ∈ pieces path) :
    '/' ∉ piece.toList := by
  have hpieces : ∀ cs : List Char, ∀ w ∈ Text.pieces (· == '/') cs, '/' ∉ w := by
    intro cs
    fun_induction Text.pieces with
    | case1 => simp
    | case2 c cs hc ih => simpa using ih
    | case3 c cs hc hnil ih => simpa using Ne.symm (by simpa using hc)
    | case4 c cs hc w ws heq ih =>
      rw [heq] at ih
      simp only [List.forall_mem_cons] at ih ⊢
      refine ⟨fun hmem => ?_, ih.2⟩
      rcases List.mem_cons.1 hmem with rfl | hmem
      · exact hc (beq_self_eq_true _)
      · exact ih.1 hmem
  obtain ⟨w, hw, rfl⟩ := List.mem_map.1 h
  rw [String.toList_ofList]
  exact hpieces _ w hw

/-- Pieces with slashes between them are the pieces of the whole. -/
theorem pieces_intercalate {ps : List String} (hne : ps ≠ []) (h : ∀ p ∈ ps, '/' ∉ p.toList) :
    pieces ("/".intercalate ps) = ps := by
  have hsplit : (ps.map String.toList).map String.ofList = ps := by
    rw [List.map_map]
    exact List.map_id'' (fun p => String.ofList_toList) ps
  have hno : ∀ l ∈ ps.map String.toList, '/' ∉ l := by
    intro l hl
    obtain ⟨p, hp, rfl⟩ := List.mem_map.1 hl
    exact h p hp
  rw [pieces_eq, String.toList_intercalate]
  show (List.splitOn '/' (['/'].intercalate _)).map _ = _
  rw [List.splitOn_intercalate '/' hno (by simpa using hne), hsplit]

/-- A path is absolute exactly if its first piece is empty and not the only one. -/
theorem isAbsolute_iff {path : String} :
    isAbsolute path = true ↔ ∃ q qs, pieces path = "" :: q :: qs := by
  rw [isAbsolute, String.startsWith_string_iff]
  constructor
  · rintro ⟨cs, hcs⟩
    have hpath : path = "" ++ "/" ++ String.ofList cs := by
      rw [← String.toList_inj, ← hcs]
      simp
    obtain ⟨q, qs, hq⟩ := List.exists_cons_of_ne_nil (pieces_ne_nil (String.ofList cs))
    refine ⟨q, qs, ?_⟩
    rw [hpath, pieces_slash, hq]
    rfl
  · rintro ⟨q, qs, hpieces⟩
    rw [pieces_eq] at hpieces
    cases hcs : path.toList with
    | nil =>
      rw [hcs] at hpieces
      cases hpieces
    | cons c cs =>
      rw [hcs, List.splitOn_cons_eq_if_modifyHead] at hpieces
      split at hpieces
      · next hc =>
        rw [beq_iff_eq.1 hc]
        exact ⟨cs, rfl⟩
      · -- otherwise the first piece has a character
        obtain ⟨w, ws, hw⟩ := List.exists_cons_of_ne_nil (List.splitOn_ne_nil '/' cs)
        rw [hw] at hpieces
        have hfirst := congrArg String.toList (List.cons.inj hpieces).1
        rw [String.toList_ofList] at hfirst
        cases hfirst

/-! ## Names -/

theorem counting_append (ps qs : List String) : counting (ps ++ qs) = counting ps ++ counting qs :=
  List.filter_append ps qs

theorem counting_eq_nil_iff {ps : List String} :
    counting ps = [] ↔ ∀ piece ∈ ps, isSilent piece = true := by
  rw [counting, List.filter_eq_nil_iff]
  simp

theorem names_slash (a b : String) : names (a ++ "/" ++ b) = names a ++ names b := by
  rw [names, pieces_slash, counting_append]
  rfl

theorem components_of_isAbsolute {path : String} (h : isAbsolute path = true) :
    components path = "/" :: names path :=
  if_pos h

theorem components_of_not_isAbsolute {path : String} (h : isAbsolute path = false) :
    components path = names path :=
  if_neg (by rw [h]; exact Bool.false_ne_true)

/-- The current directory has no components. -/
theorem components_of_isCurrent {path : String} (h : isCurrent path = true) :
    components path = [] := by
  rw [isCurrent, Bool.or_eq_true, Bool.and_eq_true, String.isEmpty_iff] at h
  rcases h with rfl | ⟨hfront, hsilent⟩
  · rfl
  · have hrelative : isAbsolute path = false := by
      rw [← Bool.not_eq_true, isAbsolute_iff]
      rintro ⟨q, qs, hpieces⟩
      rw [hpieces] at hfront
      cases hfront
    rw [components_of_not_isAbsolute hrelative, names, counting_eq_nil_iff]
    exact List.all_eq_true.1 hsilent

/-! ## Paths within a directory -/

theorem exists_eq_append_slash {path : String} (h : path.endsWith "/" = true) :
    ∃ a, path = a ++ "/" := by
  have hslice : path.toSlice.endsWith "/" = true := h
  rw [String.Slice.endsWith_string_iff, String.copy_toSlice] at hslice
  obtain ⟨cs, hcs⟩ := hslice
  refine ⟨String.ofList cs, ?_⟩
  rw [← String.toList_inj, ← hcs]
  simp

theorem names_join {base path : String} (h : isAbsolute path = false) :
    names (join base path) = names base ++ names path := by
  unfold join
  rw [if_neg (by rw [h]; exact Bool.false_ne_true)]
  split
  · next hend =>
    obtain ⟨a, rfl⟩ := exists_eq_append_slash hend
    have hslash : names (a ++ "/") = names a := by
      have h := names_slash a ""
      rw [String.append_empty] at h
      rw [h]
      exact List.append_nil _
    rw [names_slash, hslash]
  · exact names_slash base path

/-- A path within a directory is absolute if the directory is. -/
theorem isAbsolute_join_eq {base path : String} (hbase : base ≠ "") (h : isAbsolute path = false) :
    isAbsolute (join base path) = isAbsolute base := by
  obtain ⟨c, cs, hcs⟩ : ∃ c cs, base.toList = c :: cs :=
    List.exists_cons_of_ne_nil (mt String.toList_eq_nil_iff.1 hbase)
  have happend : ∀ r : String, isAbsolute (base ++ r) = isAbsolute base := by
    intro r
    rw [Bool.eq_iff_iff, isAbsolute, isAbsolute, String.startsWith_string_iff,
      String.startsWith_string_iff, String.toList_append, hcs]
    show ['/'] <+: c :: (cs ++ r.toList) ↔ ['/'] <+: c :: cs
    simp
  unfold join
  rw [if_neg (by rw [h]; exact Bool.false_ne_true)]
  split
  · exact happend path
  · rw [String.append_assoc]
    exact happend ("/" ++ path)

/-- The components of a path within a directory. -/
theorem components_join {base path : String} (hbase : base ≠ "") (h : isAbsolute path = false) :
    components (join base path) = components base ++ names path := by
  rw [components, components, isAbsolute_join_eq hbase h, names_join h]
  split <;> rfl

/-! ## Directories of files -/

/-- The component that the first piece stands for if it is empty and the path goes on. -/
def rootOf (front : String) : List String :=
  if front = "" then ["/"] else []

theorem components_of_pieces {path front : String} {rest : List String}
    (h : pieces path = front :: rest) (hrest : rest ≠ []) :
    components path = rootOf front ++ counting (front :: rest) := by
  have habsolute : isAbsolute path = true ↔ front = "" := by
    rw [isAbsolute_iff, h]
    constructor
    · rintro ⟨q, qs, hcons⟩
      exact (List.cons.inj hcons).1
    · rintro rfl
      obtain ⟨q, qs, rfl⟩ := List.exists_cons_of_ne_nil hrest
      exact ⟨q, qs, rfl⟩
  rw [components, rootOf, names, h]
  by_cases hfront : front = ""
  · rw [if_pos (habsolute.2 hfront), if_pos hfront]
    rfl
  · rw [if_neg (mt habsolute.1 hfront), if_neg hfront]
    rfl

theorem components_of_singleton {path front : String} (h : pieces path = [front]) :
    components path = counting [front] := by
  have hrelative : isAbsolute path = false := by
    rw [← Bool.not_eq_true, isAbsolute_iff, h]
    rintro ⟨q, qs, hcons⟩
    cases hcons
  rw [components_of_not_isAbsolute hrelative, names, h]

/-- Pieces without slashes are the pieces of the path that they are joined to. -/
theorem components_joined {front : String} {rest : List String}
    (h : ∀ p ∈ front :: rest, '/' ∉ p.toList) :
    components (joined (front :: rest)) = rootOf front ++ counting (front :: rest) := by
  have hpieces := pieces_intercalate (List.cons_ne_nil front rest) h
  cases rest with
  | nil =>
    by_cases hfront : front = ""
    · have hroot : pieces "/" = ["", ""] := rfl
      subst hfront
      show components "/" = _
      rw [components_of_pieces hroot (List.cons_ne_nil "" [])]
      rfl
    · have hjoined : joined [front] = "/".intercalate [front] := by
        rw [joined]
        intro hsame
        exact hfront (List.cons.inj hsame).1
      rw [hjoined, components_of_singleton hpieces, rootOf, if_neg hfront]
      rfl
  | cons q qs =>
    have hjoined : joined (front :: q :: qs) = "/".intercalate (front :: q :: qs) := by
      rw [joined]
      nofun
    rw [hjoined, components_of_pieces hpieces (List.cons_ne_nil q qs)]

theorem trimmed_cons (front : String) (rest : List String) :
    trimmed (front :: rest) = front :: rest.rdropWhile isSilent :=
  rfl

/-- Dropping the pieces behind the last one that counts drops none that counts. -/
theorem counting_trimmed (ps : List String) : counting (trimmed ps) = counting ps := by
  cases ps with
  | nil => rfl
  | cons front rest =>
    have hdropped : counting (rest.rtakeWhile isSilent) = [] :=
      counting_eq_nil_iff.2 fun piece hpiece => List.mem_rtakeWhile_imp hpiece
    have hrest : counting (rest.rdropWhile isSilent) = counting rest := by
      conv_rhs => rw [← @List.rdropWhile_append_rtakeWhile _ isSilent rest]
      rw [counting_append, hdropped, List.append_nil]
    rw [trimmed_cons, ← List.singleton_append, counting_append, hrest, ← counting_append,
      List.singleton_append]

/-- A file with no piece behind the front that counts is in the current directory. -/
theorem components_directory_of_front {path front : String} {rest : List String}
    (h : pieces path = front :: rest) (hsilent : rest.rdropWhile isSilent = []) :
    components (directory path) = (components path).dropLast := by
  have hdirectory : directory path = "." := by
    rw [directory, parent?, h, trimmed_cons, hsilent]
    by_cases hfront : front = ""
    · subst hfront
      rfl
    · simp
  have hcounting := counting_trimmed (front :: rest)
  rw [trimmed_cons, hsilent] at hcounting
  have hlength : (components path).length ≤ 1 := by
    by_cases hrest : rest = []
    · subst hrest
      rw [components_of_singleton h]
      exact List.length_filter_le _ [front]
    · rw [components_of_pieces h hrest, ← hcounting, rootOf]
      by_cases hfront : front = ""
      · subst hfront
        exact le_refl 1
      · rw [if_neg hfront, List.nil_append]
        exact List.length_filter_le _ [front]
  rw [hdirectory, components_of_isCurrent (by decide +kernel), eq_comm,
    ← List.length_eq_zero_iff, List.length_dropLast]
  omega

theorem parent?_of_last {path front last : String} {rest init : List String}
    (h : pieces path = front :: rest) (hlast : rest.rdropWhile isSilent = init ++ [last]) :
    parent? path = some (joined (trimmed (front :: init))) := by
  have hdrop : (front :: (init ++ [last])).dropLast = front :: init :=
    @List.dropLast_concat _ (front :: init) last
  obtain ⟨q, qs, hq⟩ := List.exists_cons_of_ne_nil (List.concat_ne_nil last init)
  rw [hq] at hdrop
  rw [parent?, h, trimmed_cons, hlast, hq]
  simp [hdrop]

/-- An empty directory is the current one, and so has no components either. -/
theorem components_directory_of_parent? {path dir : String} (h : parent? path = some dir) :
    components (directory path) = components dir := by
  rw [directory, h]
  by_cases hdir : dir = ""
  · rw [hdir]
    decide +kernel
  · simp [hdir]

/-- A file with a piece behind the front that counts is in the directory of the pieces before the
last of these. -/
theorem components_directory_of_last {path front last : String} {rest init : List String}
    (h : pieces path = front :: rest) (hlast : rest.rdropWhile isSilent = init ++ [last]) :
    components (directory path) = (components path).dropLast := by
  have hne : rest.rdropWhile isSilent ≠ [] := by
    rw [hlast]
    exact List.concat_ne_nil last init
  have hcounts : counting [last] = [last] := by
    have hnot : ¬ isSilent last = true := by
      simpa [hlast] using List.rdropWhile_last_not isSilent rest hne
    rw [counting, List.filter_singleton, Bool.eq_false_iff.2 hnot]
    rfl
  have hkept : init ++ [last] <+: rest := hlast ▸ List.rdropWhile_prefix isSilent rest
  have hslash : ∀ p ∈ front :: init.rdropWhile isSilent, '/' ∉ p.toList := by
    have hinit : init.rdropWhile isSilent ⊆ rest :=
      ((List.rdropWhile_prefix isSilent init).trans
        ((List.prefix_append init [last]).trans hkept)).subset
    intro p hp
    have hmem : p ∈ pieces path := by
      rw [h]
      exact List.cons_subset_cons front hinit hp
    exact slash_notMem_of_mem_pieces hmem
  have hrest : rest ≠ [] := by
    rintro rfl
    exact hne rfl
  have hcounting := counting_trimmed (front :: rest)
  rw [trimmed_cons, hlast, ← List.cons_append, counting_append] at hcounting
  rw [components_directory_of_parent? (parent?_of_last h hlast), trimmed_cons,
    components_joined hslash, ← trimmed_cons, counting_trimmed, components_of_pieces h hrest,
    ← hcounting, hcounts, ← List.append_assoc, List.dropLast_concat]

/-- The components of the directory of a file are those of the file but for the last one. -/
theorem components_directory (path : String) :
    components (directory path) = (components path).dropLast := by
  obtain ⟨front, rest, hpieces⟩ := List.exists_cons_of_ne_nil (pieces_ne_nil path)
  rcases List.eq_nil_or_concat' (rest.rdropWhile isSilent) with hsilent | ⟨init, last, hlast⟩
  · exact components_directory_of_front hpieces hsilent
  · exact components_directory_of_last hpieces hlast

/-! ## Paths as they are seen from a directory -/

theorem names_withoutCurrent (path : String) : names (withoutCurrent path) = names path := by
  unfold withoutCurrent
  split
  · next cs hcs =>
    have hpath : path = "." ++ "/" ++ String.ofList cs := by
      rw [← String.toList_inj, hcs]
      simp
    rw [hpath, names_slash]
    rfl
  · rfl

/-- Without the current directory at its front, a relative path is absolute if another slash
follows. -/
theorem isAbsolute_withoutCurrent {path : String} (h : isAbsolute path = false) :
    isAbsolute (withoutCurrent path) = path.startsWith ".//" := by
  rw [Bool.eq_iff_iff, String.startsWith_string_iff]
  unfold withoutCurrent
  split
  · next cs hcs =>
    rw [isAbsolute, String.startsWith_string_iff, @String.toList_ofList cs, hcs]
    show ['/'] <+: cs ↔ ['.', '/', '/'] <+: '.' :: '/' :: cs
    simp
  · next hno =>
    rw [h]
    refine iff_of_false Bool.false_ne_true ?_
    rintro ⟨cs, hcs⟩
    exact hno ('/' :: cs) hcs.symm

/-- The components of the directory that a path is followed from: the base directory, unless a point
and two slashes at the front of the path lead to the root. -/
def origin (base path : String) : List String :=
  if path.startsWith ".//" && !isCurrent base then ["/"] else components base

/-- The path is followed from the base directory itself exactly if it does not lead to the root, or
the base directory is the current directory or the root. -/
theorem origin_eq_iff {base path : String} : origin base path = components base ↔
    path.startsWith ".//" = false ∨ isCurrent base = true ∨ components base = ["/"] := by
  unfold origin
  cases path.startsWith ".//" with
  | false => simp
  | true =>
    cases hcurrent : isCurrent base with
    | true => simp
    | false => simp [eq_comm]

theorem components_resolve_of_isRelative (base : String) {path : String} (h : IsRelative path) :
    components (resolve base path) = origin base path ++ components path := by
  rw [components_of_not_isAbsolute h.absolute, resolve, isRelative_iff.1 h, Bool.or_false, origin,
    ← isAbsolute_withoutCurrent h.absolute]
  cases hcurrent : isCurrent base with
  | true =>
    rw [Bool.not_true, Bool.and_false, components_of_isCurrent hcurrent]
    exact components_of_not_isAbsolute h.absolute
  | false =>
    have hbase : base ≠ "" := by
      rintro rfl
      cases hcurrent
    rw [if_neg Bool.false_ne_true, Bool.not_false, Bool.and_true]
    cases habsolute : isAbsolute (withoutCurrent path) with
    | true =>
      -- an absolute path takes the place of the base
      have hjoin : join base (withoutCurrent path) = withoutCurrent path := if_pos habsolute
      rw [hjoin, components_of_isAbsolute habsolute, names_withoutCurrent]
      rfl
    | false =>
      rw [components_join hbase habsolute, names_withoutCurrent]
      rfl

end Location

namespace Schema

/-- A data input that is written in a document is one of the job, which has it with its path as it
is seen from the base directory. -/
theorem exists_read_of_loadTree {layout : Layout} {base : String} {d : Document} {job : Job}
    (h : loadTree layout base d = .ok job) {key : String} (hk : key ∈ inputKeys) {n : Node}
    (hn : (key, n) ∈ d) : ∃ i x, (Input.codec layout).read n.toTree = .ok i ∧
      i.toDataInput "." = .ok x ∧
      job.data.input? key = some (x.mapPath (Location.resolve base)) := by
  rw [loadTree_eq_map] at h
  obtain ⟨current, hcurrent, rfl⟩ := Except.map_eq_ok.1 h
  obtain ⟨fields, hread, hfields⟩ := Except.bind_eq_ok.1 hcurrent
  have hread := Except.mapError_eq_ok.1 hread
  have hdata := (JobDocument.toJob_eq_ok_iff.1 hfields).data
  obtain ⟨set, hf, hs, hb, -⟩ := @JobDocument.exists_field_of_mem_inputKeys layout _ hk
  obtain ⟨i, hi, hcodec⟩ := Record.exists_value_of_readTable hf hs hb hread hn
  have hinput := JobDocument.mapM_input?_of_toData hdata hk
  rw [hi] at hinput
  rcases Except.mapM_option_eq_ok.1 hinput with ⟨hnone, -⟩ | ⟨i', x, hi', hx, hsome⟩
  · cases hnone
  · cases hi'
    refine ⟨i, x, hcodec, hx, ?_⟩
    have hmap := current.data.input?_mapPaths (Location.resolve base) key
    rw [hsome] at hmap
    exact hmap

/-- The path of a data input is the one that is written, as it is seen from the base directory. -/
theorem exists_input_of_loadTree {layout : Layout} {base : String} {d : Document} {job : Job}
    (h : loadTree layout base d = .ok job) {key : String} (hk : key ∈ inputKeys) {n : Node}
    (hn : (key, n) ∈ d) : ∃ path mode, n.HoldsPath path ∧
      job.data.input? key = some { path := Location.resolve base path, mode } := by
  obtain ⟨i, x, hread, hx, hinput⟩ := exists_read_of_loadTree h hk hn
  exact ⟨x.path, x.mode, Input.holdsPath_of_read hread hx, hinput⟩

end Schema

/-- A data input that is written in a file is one of the job, and its path is the one that is
written, as it is seen from the directory of the file. -/
theorem Job.exists_input_of_ofFile {layout : Schema.Layout} {file text : String} {job : Job}
    (h : ofFile layout none file (some text) = .ok job) :
    ∃ format d, Format.ofPath file = .ok format ∧ format.read text = .ok d ∧
      ∀ key ∈ Schema.inputKeys, ∀ n, (key, n) ∈ d → ∃ path mode, n.HoldsPath path ∧
        job.data.input? key =
          some { path := Location.resolve (Location.directory file) path, mode } := by
  obtain ⟨format, hformat, h⟩ := Except.bind_eq_ok.1 h
  obtain ⟨d, hread, hload⟩ := Except.bind_eq_ok.1 h
  refine ⟨format, d, Except.mapError_eq_ok.1 hformat, Except.mapError_eq_ok.1 hread, ?_⟩
  intro key hk n hn
  exact Schema.exists_input_of_loadTree (Except.mapError_eq_ok.1 hload) hk hn

namespace Location

/-- A path that depends on a directory is followed from its origin, which is the base directory
unless a point and two slashes at its front lead to the root; so are the paths that are written in a
file, whose directory has the components of the file but for the last one. -/
theorem components_resolve (base path : String) (layout : Schema.Layout) (file text : String) :
    (IsRelative path → components (resolve base path) = origin base path ++ components path) ∧
    (origin base path = components base ↔
      path.startsWith ".//" = false ∨ isCurrent base = true ∨ components base = ["/"]) ∧
    components (directory file) = (components file).dropLast ∧
    ∀ job, Job.ofFile layout none file (some text) = .ok job →
      ∃ format d, Format.ofPath file = .ok format ∧ format.read text = .ok d ∧
        ∀ key ∈ Schema.inputKeys, ∀ n, (key, n) ∈ d → ∃ path x, n.HoldsPath path ∧
          job.data.input? key = some x ∧ x.path = resolve (directory file) path ∧
          (IsRelative path →
            components x.path = origin (directory file) path ++ components path) := by
  refine ⟨fun hpath => ?_, origin_eq_iff, components_directory file, fun job hjob => ?_⟩
  · exact components_resolve_of_isRelative base hpath
  · obtain ⟨format, d, hformat, hread, hinputs⟩ := Job.exists_input_of_ofFile hjob
    refine ⟨format, d, hformat, hread, fun key hk n hn => ?_⟩
    obtain ⟨path, mode, hholds, hx⟩ := hinputs key hk n hn
    refine ⟨path, _, hholds, hx, rfl, fun hpath => ?_⟩
    exact components_resolve_of_isRelative (directory file) hpath

/-- Points and empty pieces stay within a directory, and a file is in one. -/
theorem components_resolve_points :
    components (resolve "jobs" "./data/.//x") = ["jobs", "data", "x"] ∧
    ∃ job x, Job.ofFile .standalone none "./jobs//a.toml"
        (some "target_column_name = \"y\"\ntraining_data.path = \"./d\"") = .ok job ∧
      job.data.trainingData = some x ∧ components x.path = ["jobs", "d"] := by
  obtain ⟨text, htext⟩ : ∃ text,
      text = "target_column_name = \"y\"\ntraining_data.path = \"./d\"" := ⟨_, rfl⟩
  obtain ⟨job, hjob⟩ : ∃ job, Job.ofFile .standalone none "./jobs//a.toml" (some text) = .ok job := by
    have hok : (Job.ofFile .standalone none "./jobs//a.toml" (some text)).isOk = true := by
      rw [htext]
      decide +kernel
    cases h : Job.ofFile .standalone none "./jobs//a.toml" (some text) with
    | ok job => exact ⟨job, rfl⟩
    | error e => rw [h] at hok; cases hok
  have hfound : ((Format.read .toml text).toOption.bind (·.lookup "training_data")).any (fun n =>
      (Schema.InputTable.record.read n.toTree).toOption.any (·.path == "./d")) = true := by
    rw [htext]
    decide +kernel
  obtain ⟨hresolve, -, -, hfile⟩ :=
    components_resolve "jobs" "./data/.//x" .standalone "./jobs//a.toml" text
  obtain ⟨format, d, hformat, hread, hinputs⟩ := hfile job hjob
  have htoml : Format.ofPath "./jobs//a.toml" = .ok .toml := by decide +kernel
  cases htoml.symm.trans hformat
  rw [hread] at hfound
  obtain ⟨n, hn, hpath⟩ := (Option.any_eq_true _ _).1 hfound
  obtain ⟨before, after, rfl, -⟩ := List.lookup_eq_some_iff.1 hn
  obtain ⟨path, x, hholds, hx, -, hcomponents⟩ :=
    hinputs "training_data" (by decide) n (List.mem_append_right _ List.mem_cons_self)
  have hwritten : path = "./d" := by
    cases htable : Schema.InputTable.record.read n.toTree with
    | ok t =>
      rw [htable] at hpath
      exact (Schema.InputTable.path_eq_of_read htable hholds).symm.trans (beq_iff_eq.1 hpath)
    | error e =>
      rw [htable] at hpath
      cases hpath
  subst hwritten
  refine ⟨?_, job, x, htext ▸ hjob, hx, ?_⟩
  · rw [hresolve (isRelative_iff.2 (by decide +kernel))]
    decide +kernel
  · rw [hcomponents (isRelative_iff.2 (by decide +kernel))]
    decide +kernel

/-- A point and two slashes lead from a directory to the root. -/
theorem components_resolve_ne : isCurrent "jobs" = false ∧ IsRelative ".//data" ∧
    resolve "jobs" ".//data" = "/data" ∧
    components (resolve "jobs" ".//data") ≠ components "jobs" ++ components ".//data" :=
  ⟨by decide +kernel, isRelative_iff.2 (by decide +kernel), by decide +kernel, by decide +kernel⟩

end Location

end ForecastJob

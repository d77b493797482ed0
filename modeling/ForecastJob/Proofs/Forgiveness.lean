import ForecastJob.Proofs.Spelling
import ForecastJob.Proofs.Trimming

/-!
# What is forgiven in a spelling

A spelling may be written in another case and with other separators. What counts of a text are its
letters and digits, though, so that all other characters are forgiven too, also those that make the
text a binding.

* `Choice.parse_eq_ok_iff` : a text is read as the member one of whose spellings has its key;
* `Choice.bare`, `Choice.isPlain` : a text without separators and case, and the texts of which
  nothing else is forgiven;
* `Metric.ofText_eq_ok_concrete_iff` : known metrics are read from the texts that spell them, since
  no binding to the enclosing pipeline does;
* `Choice.parse_forgives` : what is forgiven of a text, and of a binding;
* `Choice.parse_forgives_binding` : a binding that is read as a known metric.
-/

namespace ForecastJob

/-! ## Letters and digits -/

namespace Text

theorem isAlphanum_eq (c : Char) : c.isAlphanum = decide ((48 ≤ c.toNat ∧ c.toNat ≤ 57) ∨
    (65 ≤ c.toNat ∧ c.toNat ≤ 90) ∨ (97 ≤ c.toNat ∧ c.toNat ≤ 122)) := by
  have hchar : c.isAlphanum = ((decide (65 ≤ c.toNat ∧ c.toNat ≤ 90) ||
      (decide (97 ≤ c.toNat) && decide (c.toNat ≤ 122))) ||
      (decide (48 ≤ c.toNat) && decide (c.toNat ≤ 57))) := rfl
  rw [hchar, ← Bool.decide_and, ← Bool.decide_and, ← Bool.decide_or, ← Bool.decide_or,
    decide_eq_decide, or_comm]

theorem toNat_toLower (c : Char) :
    c.toLower.toNat = if 65 ≤ c.toNat ∧ c.toNat ≤ 90 then c.toNat + 32 else c.toNat := by
  have hupper : c.val ≥ 'A'.val ∧ c.val ≤ 'Z'.val ↔ 65 ≤ c.toNat ∧ c.toNat ≤ 90 := by
    rw [ge_iff_le, UInt32.le_iff_toNat_le, UInt32.le_iff_toNat_le]
    rfl
  unfold Char.toLower
  split
  · next h =>
    have hc := hupper.1 h
    have hshift : ('a'.val - 'A'.val).toNat = 32 := rfl
    have hlt : c.toNat + 32 < 2 ^ 32 := by omega
    rw [if_pos hc, Char.toNat, UInt32.toNat_add, hshift]
    exact Nat.mod_eq_of_lt hlt
  · next h => rw [if_neg (mt hupper.2 h)]

theorem toLower_toLower (c : Char) : c.toLower.toLower = c.toLower := by
  refine Char.toNat_inj.1 ?_
  rw [toNat_toLower c.toLower, if_neg]
  rw [toNat_toLower]
  split <;> omega

theorem isAlphanum_toLower (c : Char) : c.toLower.isAlphanum = c.isAlphanum := by
  rw [isAlphanum_eq, isAlphanum_eq, toNat_toLower, decide_eq_decide]
  split <;> omega

theorem isAlphanum_of_isBlank {c : Char} (h : isBlank c = true) : c.isAlphanum = false := by
  rw [isAlphanum_eq, decide_eq_false_iff_not]
  simp [isBlank] at h
  omega

/-- Characters that are dropped at the front and do not count make no difference. -/
theorem filter_dropWhile {p q : Char → Bool} (h : ∀ c, q c = true → p c = false) (cs : List Char) :
    (cs.dropWhile q).filter p = cs.filter p := by
  induction cs with
  | nil => rfl
  | cons c cs ih =>
    rw [List.dropWhile_cons]
    split
    · next hc => rw [ih, List.filter_cons_of_neg (by rw [h c hc]; exact Bool.false_ne_true)]
    · rfl

theorem filter_trimChars (cs : List Char) :
    (trimChars cs).filter Char.isAlphanum = cs.filter Char.isAlphanum := by
  have hblank : ∀ c, isBlank c = true → c.isAlphanum = false := fun _ => isAlphanum_of_isBlank
  rw [trimChars, dropRightWhile, List.filter_reverse, filter_dropWhile hblank, List.filter_reverse,
    List.reverse_reverse, filter_dropWhile hblank]

end Text

/-! ## Keys -/

namespace Choice

theorem toList_key (s : String) :
    (key s).toList = (s.toList.filter Char.isAlphanum).map Char.toLower :=
  String.toList_ofList

/-- The characters that part the words of a spelling. -/
def isSeparator (c : Char) : Bool :=
  c == '_' || c == '-' || c == ' '

/-- A text without its separators, in lower case. -/
def bare (s : String) : String :=
  String.ofList ((s.toList.filter fun c => !isSeparator c).map Char.toLower)

/-- A text that is made of letters, digits and separators. -/
def isPlain (s : String) : Bool :=
  s.toList.all fun c => isSeparator c || c.isAlphanum

theorem isSeparator_of_isAlphanum {c : Char} (h : c.isAlphanum = true) :
    isSeparator c = false := by
  rw [← Bool.not_eq_true]
  intro hc
  simp only [isSeparator, Bool.or_eq_true, beq_iff_eq] at hc
  rcases hc with (rfl | rfl) | rfl <;> cases h

theorem toList_bare (s : String) :
    (bare s).toList = (s.toList.filter fun c => !isSeparator c).map Char.toLower :=
  String.toList_ofList

/-- What counts of a text without separators and case is what counts of the text. -/
theorem filter_bare (s : String) : (bare s).toList.filter Char.isAlphanum = (key s).toList := by
  rw [toList_bare, toList_key, List.filter_map, List.filter_filter]
  refine congrArg (List.map Char.toLower) (List.filter_congr fun c _ => ?_)
  rw [Function.comp_apply, Text.isAlphanum_toLower]
  cases hc : c.isAlphanum with
  | false => rfl
  | true => rw [isSeparator_of_isAlphanum hc]; rfl

/-- In a plain text only separators and case do not count. -/
theorem bare_eq_key_iff {s : String} : bare s = key s ↔ isPlain s = true := by
  rw [← String.toList_inj, ← filter_bare, eq_comm, List.filter_eq_self, toList_bare, isPlain,
    List.all_eq_true]
  simp only [List.forall_mem_map, List.mem_filter, Text.isAlphanum_toLower, and_imp,
    Bool.not_eq_true', ← Bool.not_eq_true, Bool.or_eq_true, or_iff_not_imp_left]

/-! ## Members -/

section Members

variable {α : Type} [Choice α]

/-- Only the key of a text matters. -/
theorem parse_of_key_eq {s t : String} {a : α} (h : key s = key t) (ha : parse s = .ok a) :
    parse t = .ok a := by
  have hspells : (spells s : α → Bool) = spells t := by
    funext b
    rw [spells, spells, h]
  rw [parse] at ha ⊢
  rw [← hspells]
  cases hfind : (all : List α).find? (spells s) with
  | none =>
    rw [hfind] at ha
    cases ha
  | some b =>
    rw [hfind] at ha
    exact ha

variable [DecidableEq α] [LawfulChoice α]

/-- A text is read as the member one of whose spellings has its key. -/
theorem parse_eq_ok_iff {s : String} {a : α} :
    parse s = .ok a ↔ key s = key (wire a) ∨ key s = key (doc a) := by
  constructor
  · intro h
    rw [parse] at h
    split at h
    · next b hb =>
      cases h
      have hspells := List.find?_some hb
      rw [spells, Bool.or_eq_true, beq_iff_eq, beq_iff_eq] at hspells
      exact hspells.imp Eq.symm Eq.symm
    · cases h
  · rintro (h | h)
    · exact parse_of_key_eq h.symm (parse_wire a)
    · exact parse_of_key_eq h.symm (parse_doc a)

end Members

end Choice

/-- The spellings of a choice are plain. -/
class PlainChoice (α : Type) [Choice α] : Prop where
  plain_all : ((Choice.all : List α).all fun a =>
    Choice.isPlain (Choice.wire a) && Choice.isPlain (Choice.doc a)) = true := by decide +kernel

instance : PlainChoice FeatureLags where

instance : PlainChoice UseStl where

instance : PlainChoice ShortSeriesHandling where

instance : PlainChoice TargetAggregateFunction where

instance : PlainChoice ForecastingMetric where

instance : PlainChoice InputMode where

instance : PlainChoice LogVerbosity where

instance : PlainChoice TrainingMode where

instance : PlainChoice StackMetaLearner where

instance : PlainChoice FeaturizationMode where

instance : PlainChoice OutputType where

instance : PlainChoice OutputMode where

instance : PlainChoice JobTier where

namespace Choice

section Members

variable {α : Type} [Choice α] [DecidableEq α] [LawfulChoice α] [h : PlainChoice α]

theorem bare_spelling (a : α) : bare (wire a) = key (wire a) ∧ bare (doc a) = key (doc a) := by
  have ha := List.all_eq_true.1 h.plain_all a (LawfulChoice.mem_all a)
  rw [Bool.and_eq_true] at ha
  exact ⟨bare_eq_key_iff.2 ha.1, bare_eq_key_iff.2 ha.2⟩

/-- A text with the bare form of a plain text is plain. -/
theorem bare_eq_key_of_bare_eq {s t : String} (hst : bare s = bare t) (ht : bare t = key t) :
    bare s = key s := by
  rw [← String.toList_inj, ← filter_bare s, hst, filter_bare, ht]

/-- A text that is read as a member is one of its spellings but for separators and case exactly if
it is plain. -/
theorem bare_eq_iff_of_parse {s : String} {a : α} (ha : parse s = .ok a) :
    (bare s = bare (wire a) ∨ bare s = bare (doc a)) ↔ isPlain s = true := by
  obtain ⟨hwire, hdoc⟩ := bare_spelling a
  rw [← bare_eq_key_iff]
  constructor
  · rintro (hs | hs)
    · exact bare_eq_key_of_bare_eq hs hwire
    · exact bare_eq_key_of_bare_eq hs hdoc
  · intro hs
    rw [hs, hwire, hdoc]
    exact parse_eq_ok_iff.1 ha

end Members

end Choice

/-! ## Bindings and metrics -/

namespace Binding

open Choice

/-- What counts of a binding is what counts of its path. -/
theorem key_of_path? {s : String} {path : List Char} (h : path? s = some path) :
    key s = key (String.ofList path) := by
  obtain ⟨rest, hrest, h⟩ := Option.bind_eq_some_iff.1 h
  obtain ⟨inner, hinner, h⟩ := Option.bind_eq_some_iff.1 h
  dsimp only at h
  split at h
  · cases h
    have houter := Text.dropFront?_eq_some_iff.1 hrest
    rw [Text.dropBack?_eq_some_iff.1 hinner] at houter
    have hopening : opening.filter Char.isAlphanum = [] := by decide
    have hclosing : closing.filter Char.isAlphanum = [] := by decide
    rw [← String.toList_inj, toList_key, toList_key, String.toList_ofList, ← Text.filter_trimChars,
      houter, List.filter_append, List.filter_append, hopening, hclosing, List.append_nil,
      List.nil_append, Text.filter_trimChars]
  · cases h

/-- The key of a binding to the enclosing pipeline starts with the name of its namespace. -/
theorem prefix_key_of_isParent {s : String} (h : isParent s = true) :
    "parent".toList <+: (key s).toList := by
  rw [isParent, isExpression] at h
  split at h
  · cases h
  · next path hpath =>
    have hhead : head path = "parent" := by simpa using h
    have hfront : "parent".toList <+: path := by
      rw [← hhead, head, String.toList_ofList]
      exact List.takeWhile_prefix _
    obtain ⟨rest, rfl⟩ := hfront
    have hkey := congrArg String.toList (key_of_path? hpath)
    rw [toList_key (String.ofList _), String.toList_ofList, List.filter_append, List.map_append]
      at hkey
    exact ⟨_, hkey.symm⟩

end Binding

namespace Metric

open Choice

theorem key_spelling (m : ForecastingMetric) :
    ¬ "parent".toList <+: (key (Choice.wire m)).toList ∧
      ¬ "parent".toList <+: (key (Choice.doc m)).toList := by
  cases m <;> exact ⟨by decide +kernel, by decide +kernel⟩

/-- A text is read as a known metric exactly if it spells it, since no binding to the enclosing
pipeline does. -/
theorem ofText_eq_ok_concrete_iff {s : String} {m : ForecastingMetric} :
    ofText s = .ok (.concrete m) ↔ Choice.parse s = .ok m := by
  rw [ofText]
  by_cases hs : Binding.isParent s = true
  · rw [if_pos hs]
    have hprefix := Binding.prefix_key_of_isParent hs
    obtain ⟨hwire, hdoc⟩ := key_spelling m
    constructor
    · intro h
      cases h
    · intro h
      rcases parse_eq_ok_iff.1 h with h | h
      · exact absurd (h ▸ hprefix) hwire
      · exact absurd (h ▸ hprefix) hdoc
  · rw [if_neg hs]
    cases hparse : (Choice.parse s : Except Choice.Unknown ForecastingMetric) with
    | error e => simp
    | ok m' => simp

end Metric

/-! ## What is forgiven -/

namespace Choice

/-- A text is read as a member exactly if it has the key of one of its spellings. It then is this
spelling but for separators and case exactly if it is made of letters, digits and separators; what
else there is in it is forgiven too. Known metrics are read from the same texts, among them the
bindings whose path spells the metric. -/
theorem parse_forgives {α : Type} [Choice α] [DecidableEq α] [LawfulChoice α] [PlainChoice α]
    (s : String) :
    (∀ a : α, parse s = .ok a ↔ key s = key (wire a) ∨ key s = key (doc a)) ∧
    (∀ a : α, parse s = .ok a →
      ((bare s = bare (wire a) ∨ bare s = bare (doc a)) ↔ isPlain s = true)) ∧
    ∀ m, (Metric.parse (some s) = .ok (.concrete m) ↔ parse s = .ok m) ∧
      ∀ path, Binding.path? s = some path →
        (Metric.parse (some s) = .ok (.concrete m) ↔ parse (String.ofList path) = .ok m) := by
  refine ⟨fun a => parse_eq_ok_iff, fun a => bare_eq_iff_of_parse, fun m => ⟨?_, ?_⟩⟩
  · exact Metric.ofText_eq_ok_concrete_iff
  · intro path hpath
    have hkey := Binding.key_of_path? hpath
    have hparse : parse s = .ok m ↔ parse (String.ofList path) = .ok m :=
      ⟨parse_of_key_eq hkey, parse_of_key_eq hkey.symm⟩
    exact Metric.ofText_eq_ok_concrete_iff.trans hparse

/-- Separators and case are forgiven, and so are brackets. -/
theorem parse_forgives_brackets :
    parse "Season TREND" = .ok UseStl.seasonTrend ∧
    (bare "Season TREND" = bare (wire UseStl.seasonTrend) ∨
      bare "Season TREND" = bare (doc UseStl.seasonTrend)) ∧
    parse "(season)" = .ok UseStl.season ∧
    ¬ (bare "(season)" = bare (wire UseStl.season) ∨
      bare "(season)" = bare (doc UseStl.season)) := by
  obtain ⟨hparse, hbare, -⟩ := @parse_forgives UseStl _ _ _ _ "Season TREND"
  obtain ⟨hparse', hbare', -⟩ := @parse_forgives UseStl _ _ _ _ "(season)"
  have htrend := (hparse .seasonTrend).2 (.inl (by decide +kernel))
  have hseason := (hparse' .season).2 (.inl (by decide +kernel))
  refine ⟨htrend, (hbare _ htrend).2 (by decide +kernel), hseason, ?_⟩
  rw [hbare' _ hseason]
  decide +kernel

/-- A binding is read as a known metric. -/
theorem parse_forgives_binding :
    Metric.parse (some "$\x7b\x7br2_score\x7d\x7d") = .ok (.concrete .r2Score) ∧
    bare "$\x7b\x7br2_score\x7d\x7d" ≠ bare (wire ForecastingMetric.r2Score) ∧
    bare "$\x7b\x7br2_score\x7d\x7d" ≠ bare (doc ForecastingMetric.r2Score) := by
  decide +kernel

end Choice

end ForecastJob

import Mathlib.Algebra.GroupWithZero.Nat
import ForecastJob.Job.Auto
import ForecastJob.Job.Metric
import ForecastJob.Job.Uuid
import ForecastJob.Proofs.Delivery

/-!
# Spellings are read back

* `LawfulChoice` : both spellings of each member of a choice are read as that member;
* `Metric.Sound` : what is deferred is a binding to the enclosing pipeline; `Metric.ofText_wire`,
  `Metric.ofText_doc`, `Metric.sound_of_parse`;
* `Uuid.parse?_toText` : the text of an identifier is read as it;
* the codecs of choices, identifiers and values left to the service are exact.
-/

namespace ForecastJob

/-! ## Choices -/

namespace Choice

variable {α : Type} [Choice α] [DecidableEq α]

/-- The text is read as the member. -/
def reads (s : String) (a : α) : Bool :=
  match (parse s : Except Unknown α) with
  | .ok b => b = a
  | .error _ => false

theorem parse_of_reads {s : String} {a : α} (h : reads s a = true) : parse s = .ok a := by
  unfold reads at h
  split at h
  · next hb => rw [hb, of_decide_eq_true h]
  · cases h

end Choice

/-- Both spellings of each member are read as that member. -/
class LawfulChoice (α : Type) [Choice α] [DecidableEq α] : Prop where
  mem_all : ∀ a : α, a ∈ Choice.all := by intro a; cases a <;> decide
  reads_all : ((Choice.all : List α).all fun a =>
    Choice.reads (Choice.wire a) a && Choice.reads (Choice.doc a) a) = true := by decide +kernel

namespace Choice

variable {α : Type} [Choice α] [DecidableEq α] [h : LawfulChoice α]

theorem parse_wire (a : α) : parse (wire a) = .ok a := by
  have ha := List.all_eq_true.1 h.reads_all a (h.mem_all a)
  rw [Bool.and_eq_true] at ha
  exact parse_of_reads ha.1

theorem parse_doc (a : α) : parse (doc a) = .ok a := by
  have ha := List.all_eq_true.1 h.reads_all a (h.mem_all a)
  rw [Bool.and_eq_true] at ha
  exact parse_of_reads ha.2

end Choice

instance : LawfulChoice FeatureLags where

instance : LawfulChoice UseStl where

instance : LawfulChoice ShortSeriesHandling where

instance : LawfulChoice TargetAggregateFunction where

instance : LawfulChoice ForecastingMetric where

instance : LawfulChoice InputMode where

instance : LawfulChoice LogVerbosity where

instance : LawfulChoice TrainingMode where

instance : LawfulChoice StackMetaLearner where

instance : LawfulChoice FeaturizationMode where

instance : LawfulChoice OutputType where

instance : LawfulChoice OutputMode where

instance : LawfulChoice JobTier where

instance {α : Type} [Choice α] [DecidableEq α] [LawfulChoice α] :
    (Codec.choice : Codec α).Exact where
  carries p a := by
    refine ⟨_, p.pass_text _, rfl, ?_⟩
    simp only [Codec.choice, Json.toTree, Codec.text, bind, Except.bind,
      Choice.parse_doc]

/-! ## Metrics -/

namespace Metric

/-- What is deferred is a binding to the enclosing pipeline. -/
def Sound : Metric → Prop
  | concrete _ => True
  | deferred expression => Binding.isParent expression = true

/-- No spelling of a known metric looks like a binding. -/
theorem isParent_spelling (m : ForecastingMetric) :
    Binding.isParent (Choice.wire m) = false ∧ Binding.isParent (Choice.doc m) = false := by
  cases m <;> exact ⟨rfl, rfl⟩

theorem ofText_wire {m : Metric} (h : m.Sound) : ofText m.wire = .ok m := by
  cases m with
  | concrete m =>
    simp only [ofText, wire, (isParent_spelling m).1, Choice.parse_wire]
    rfl
  | deferred expression => exact if_pos h

theorem ofText_doc {m : Metric} (h : m.Sound) : ofText m.doc = .ok m := by
  cases m with
  | concrete m =>
    simp only [ofText, doc, (isParent_spelling m).2, Choice.parse_doc]
    rfl
  | deferred expression => exact if_pos h

theorem sound_of_parse {o : Option String} {m : Metric} (h : parse o = .ok m) : m.Sound := by
  cases o with
  | none => cases h; trivial
  | some s =>
    simp only [parse, ofText] at h
    split at h
    · next hp => cases h; exact hp
    · split at h
      · cases h; trivial
      · cases h

end Metric

/-! ## Identifiers -/

namespace Uuid

theorem digit?_hexChar (d : Fin 16) : digit? (Json.hexChar d.val) = some d := by
  revert d
  decide

/-- A digit does not look like the front of a brace or of a URN. -/
theorem hexChar_ne (d : Fin 16) : Json.hexChar d.val ≠ '{' ∧ Json.hexChar d.val ≠ 'u' := by
  revert d
  decide

theorem mapM_digit?_hexChar (ds : List (Fin 16)) :
    (ds.map fun d => Json.hexChar d.val).mapM digit? = some ds := by
  induction ds with
  | nil => rfl
  | cons d ds ih =>
    rw [List.map_cons, List.mapM_cons, digit?_hexChar, ih]
    rfl

theorem ofDigits?_hexChar (u : Uuid) :
    ofDigits? (u.digits.map fun d => Json.hexChar d.val) = some u := by
  simp only [ofDigits?, mapM_digit?_hexChar, Option.bind_eq_bind, Option.bind_some,
    u.length_digits, dif_pos]

/-- Behind the first group stand the other ones. -/
theorem length_drop_group {n : Nat} {ns : List Nat} {cs : List Char}
    (h : cs.length = (n :: ns).sum) : n ≤ cs.length ∧ (cs.drop n).length = ns.sum := by
  rw [List.sum_cons] at h
  rw [List.length_drop]
  omega

theorem ungroup?_group {ns : List Nat} {cs : List Char} (hne : ns ≠ []) (h : cs.length = ns.sum) :
    ungroup? ns (group ns cs) = some cs := by
  induction ns generalizing cs with
  | nil => exact absurd rfl hne
  | cons n ns ih =>
    obtain ⟨hn, hrest⟩ := length_drop_group h
    have hlen : (cs.take n).length = n := List.length_take_of_le hn
    cases ns with
    | nil => exact if_pos (by simpa [group] using h)
    | cons m ns =>
      simp only [group, ungroup?]
      rw [List.drop_left' hlen, List.take_left' hlen]
      simp only [ih (List.cons_ne_nil _ _) hrest, Option.map_some, List.take_append_drop]

theorem length_group {ns : List Nat} {cs : List Char} (hne : ns ≠ []) (h : cs.length = ns.sum) :
    (group ns cs).length + 1 = cs.length + ns.length := by
  induction ns generalizing cs with
  | nil => exact absurd rfl hne
  | cons n ns ih =>
    obtain ⟨hn, hrest⟩ := length_drop_group h
    cases ns with
    | nil => rfl
    | cons m ns =>
      have ih := ih (List.cons_ne_nil m ns) hrest
      rw [List.length_drop] at ih
      simp only [group, List.length_append, List.length_cons, List.length_take_of_le hn] at ih ⊢
      omega

/-- The text of an identifier is read as the identifier. -/
theorem parse?_toText (u : Uuid) : parse? u.toText = some u := by
  have hlen : (u.digits.map fun d => Json.hexChar d.val).length = groups.sum := by
    rw [List.length_map, u.length_digits]
    rfl
  have hne : groups ≠ [] := List.cons_ne_nil _ _
  have hread : ofGroups? (group groups (u.digits.map fun d => Json.hexChar d.val)) = some u := by
    rw [ofGroups?, ungroup?_group hne hlen, Option.bind_some, ofDigits?_hexChar]
  have hlong : (group groups (u.digits.map fun d => Json.hexChar d.val)).length ≠ 32 := by
    have h := length_group hne hlen
    rw [hlen] at h
    simp only [groups, List.sum_cons, List.sum_nil, List.length_cons, List.length_nil] at h ⊢
    omega
  -- only the first character tells the forms apart
  obtain ⟨d, ds, hds⟩ := List.exists_cons_of_length_pos (by rw [u.length_digits]; decide :
    0 < u.digits.length)
  obtain ⟨cs, hcs⟩ : ∃ cs, group groups (u.digits.map fun d => Json.hexChar d.val) =
      Json.hexChar d.val :: cs := ⟨_, by rw [hds]; rfl⟩
  rw [hcs] at hread hlong
  have hurn : Text.dropFront? "urn:uuid:".toList (Json.hexChar d.val :: cs) = none := by
    rw [show "urn:uuid:".toList = 'u' :: "rn:uuid:".toList by decide]
    exact if_neg (hexChar_ne d).2.symm
  rw [parse?, toText, String.toList_ofList, hcs]
  split
  · next h => exact absurd (List.cons.inj h).1 (hexChar_ne d).1
  · rw [hurn]
    exact (if_neg hlong).trans hread

end Uuid

instance : Uuid.codec.Exact where
  carries p u := by
    refine ⟨_, p.pass_text _, rfl, ?_⟩
    simp only [Uuid.codec, Json.toTree, Codec.text, bind, Except.bind, Uuid.parse?_toText]

/-! ## Values that the service may choose -/

instance : AutoOr.codec.Exact where
  carries p
    | .auto => ⟨_, p.pass_text _, rfl, rfl⟩
    | .value n => by
      obtain ⟨v, hv, hn, hr⟩ := Codec.uint32.carries_self p n
      obtain rfl := Option.some.inj ((p.pass_int _).symm.trans hv)
      refine ⟨_, hv, hn, ?_⟩
      simp only [AutoOr.codec, Json.toTree] at hr ⊢
      rw [hr]
      rfl

instance : TargetLags.codec.Exact where
  carries p
    | .auto => ⟨_, p.pass_text _, rfl, rfl⟩
    | .values lags => by
      obtain ⟨v, hv, hn, hr⟩ := (Codec.int32.listOf).carries_self p lags
      obtain rfl := Option.some.inj ((p.pass_list _).symm.trans hv)
      exact ⟨_, hv, hn, congrArg (Except.map TargetLags.values) hr⟩

instance : Codec.oneOrMany.Exact where
  carries p xs := by
    obtain ⟨v, hv, hn, hr⟩ := (Codec.text.listOf).carries_self p xs
    obtain rfl := Option.some.inj ((p.pass_list _).symm.trans hv)
    exact ⟨_, hv, hn, congrArg (Except.mapError fun _ => Fault.malformed) hr⟩

end ForecastJob

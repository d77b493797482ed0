import ForecastJob.Proofs.LastLine
import ForecastJob.Proofs.Schema.RoundTrip

/-!
# The last entry of a document

The keys of a document ascend, so the last of its entries is known from which fields are written.

* `Record.exists_last_of_write` : the last entry of a record is that of the field with the greatest
  name;
* `Schema.JobDocument.lastText?` : the text that stands last in a document, by its fields;
* `Schema.exists_last_of_dump` : the last entry of the document of a job holds it.
-/

namespace ForecastJob

open Passage (document)

/-- Of ascending entries, one that no other one is greater than is the last. -/
theorem Ascending.exists_eq_concat {α : Type} {es : List (String × α)} (h : Ascending es)
    {e : String × α} (he : e ∈ es) (hlast : ∀ e' ∈ es, ¬e.1 < e'.1) :
    ∃ es', es = es' ++ [e] := by
  obtain ⟨es, l, rfl⟩ := (List.eq_nil_or_concat' es).resolve_left (List.ne_nil_of_mem he)
  rcases List.mem_append.1 he with hmem | hmem
  · have hlt := (List.pairwise_append.1 h).2.2 e hmem l List.mem_cons_self
    exact absurd hlt (hlast l (by simp))
  · exact ⟨es, by rw [List.mem_singleton.1 hmem]⟩

theorem exists_of_jsonMemberNodes?_concat {ms : List (String × Json)} {k : String} {v : Json}
    {d : List (String × Node)} (h : jsonMemberNodes? (ms ++ [(k, v)]) = some d) :
    ∃ d' n, d = d' ++ [(k, n)] ∧ v.toNode? = some n := by
  induction ms generalizing d with
  | nil =>
    obtain ⟨n, hn, hd⟩ := Option.bind_eq_some_iff.1 h
    exact ⟨[], n, (Option.some.inj hd).symm, hn⟩
  | cons m ms ih =>
    obtain ⟨l, u⟩ := m
    obtain ⟨n, -, hd⟩ := Option.bind_eq_some_iff.1 h
    obtain ⟨es, hes, hd⟩ := Option.bind_eq_some_iff.1 hd
    obtain ⟨d', n', rfl, hn'⟩ := ih hes
    exact ⟨(l, n) :: d', n', (Option.some.inj hd).symm, hn'⟩

/-- The last entry of a record is that of the field with the greatest name. -/
theorem Record.exists_last_of_write {ρ : Type} {r : Record ρ} [r.Lawful] {x : ρ} {f : Field ρ}
    (hf : f ∈ r.fields) {w : Json} (hw : (f.write x).bind document.pass = some w)
    (hlast : ∀ g ∈ r.fields, f.name < g.name → (g.write x).bind document.pass = none) {v : Json}
    (hv : document.pass (r.write x) = some v) {n : Node} (hn : v.toNode? = some n) :
    ∃ d n', n = .table (d ++ [(f.name, n')]) ∧ w.toNode? = some n' := by
  obtain ⟨es, hes, hasc, hperm⟩ := document.pass_object _ (r.nodup_keysOf_members x)
  obtain rfl : Json.object es = v := Option.some.inj (hes.symm.trans hv)
  rw [filterMap_members] at hperm
  have hmem : (f.name, w) ∈ es := hperm.mem_iff.2 (mem_arrivals.2 ⟨f, hf, rfl, hw⟩)
  have hmax : ∀ e ∈ es, ¬f.name < e.1 := by
    rintro ⟨k, u⟩ he hlt
    obtain ⟨g, hg, rfl, hu⟩ := mem_arrivals.1 (hperm.mem_iff.1 he)
    rw [hlast g hg hlt] at hu
    cases hu
  obtain ⟨es, rfl⟩ := hasc.exists_eq_concat hmem hmax
  obtain ⟨d, hd, rfl⟩ := Option.map_eq_some_iff.1 hn
  obtain ⟨d, n', rfl, hn'⟩ := exists_of_jsonMemberNodes?_concat hd
  exact ⟨d, n', rfl, hn'⟩

namespace Schema

/-- The last text of a data input is its kind, unless it is written as a text. -/
def Input.lastText : Input → String
  | text s => s
  | table t => t.type

theorem Input.exists_pass_write (i : Input) : ∃ v, document.pass i.write = some v := by
  cases i with
  | text s => exact ⟨_, document.pass_text s⟩
  | table t =>
    obtain ⟨es, hes, -⟩ := document.pass_object _ (InputTable.record.nodup_keysOf_members t)
    exact ⟨_, hes⟩

theorem Input.lastText?_of_write {i : Input} {v : Json} (hv : document.pass i.write = some v)
    {n : Node} (hn : v.toNode? = some n) : n.lastText? = some i.lastText := by
  cases i with
  | text s =>
    obtain rfl : Json.text s = v := Option.some.inj ((document.pass_text s).symm.trans hv)
    obtain rfl : Node.text s = n := Option.some.inj hn
    rfl
  | table t =>
    have hf : .defaulted "type" .text (·.type) (fun v r => { r with type := v }) ∈
        InputTable.record.fields := by
      simp [InputTable.record]
    have hlast : ∀ g ∈ InputTable.record.fields, ¬"type" < g.name := by decide +kernel
    obtain ⟨d, n', rfl, hn'⟩ := Record.exists_last_of_write hf (document.pass_text t.type)
      (fun g hg hlt => absurd hlt (hlast g hg)) hv hn
    obtain rfl : Node.text t.type = n' := Option.some.inj hn'
    exact lastEntryText?_concat d "type" _

/-- The text that stands last in a document, if one does: the name of the weight column; without one,
and without a size of the validation data, the last text of the validation data; the kind of the job
if there is none of these. -/
def JobDocument.lastText? (x : JobDocument) : Option String :=
  match x.weightColumn, x.validationSize.filter Decimal.isFinite with
  | some column, _ => some column
  | none, some _ => none
  | none, none => some ((x.validationData.map Input.lastText).getD x.type)

variable {layout : Layout} {job : Job} {d : Document}

theorem JobDocument.mem_type : .defaulted "type" .text (·.type)
    (fun v r => { r with type := v }) ∈ (record layout).fields := by
  simp [record]

theorem JobDocument.mem_validationData : .optional "validation_data" (Input.codec layout)
    (·.validationData) (fun v r => { r with validationData := v }) ∈ (record layout).fields := by
  simp [record]

theorem JobDocument.mem_validationSize : .optional "validation_data_size" .float (·.validationSize)
    (fun v r => { r with validationSize := v }) ∈ (record layout).fields := by
  simp [record]

theorem JobDocument.mem_weightColumn : .optional "weight_column_name" .text (·.weightColumn)
    (fun v r => { r with weightColumn := v }) ∈ (record layout).fields := by
  simp [record]

/-- The fields that stand behind the kind of the job: the validation data, its size, and the weight
column. -/
theorem JobDocument.names_behind_type {f : Field JobDocument} (hf : f ∈ (record layout).fields) :
    ("type" < f.name → f.name = "validation_data" ∨ "validation_data" < f.name) ∧
    ("validation_data" < f.name →
      f.name = "validation_data_size" ∨ "validation_data_size" < f.name) ∧
    ("validation_data_size" < f.name → f.name = "weight_column_name") ∧
    ¬"weight_column_name" < f.name := by
  revert f
  cases layout <;> decide +kernel

theorem bind_pass_float_eq_none {o : Option Float} (h : o.filter Decimal.isFinite = none) :
    (o.map Codec.float.write).bind document.pass = none := by
  cases o with
  | none => rfl
  | some y =>
    have hy : Decimal.isFinite y = false := by simpa using h
    simp [Codec.float, document, Json.normal, Json.ofFloat, hy, Json.isNull]

/-- If a field is not written, none of its name is. -/
theorem JobDocument.pass_write_of_name_eq {x : JobDocument} {f g : Field JobDocument}
    (hf : f ∈ (record layout).fields) (hnone : (f.write x).bind document.pass = none)
    (hg : g ∈ (record layout).fields) (hname : g.name = f.name) :
    (g.write x).bind document.pass = none := by
  rwa [Record.eq_of_name_eq hg hf hname]

theorem JobDocument.pass_write_behind_size {x : JobDocument} (hc : x.weightColumn = none)
    {g : Field JobDocument} (hg : g ∈ (record layout).fields)
    (hlt : "validation_data_size" < g.name) : (g.write x).bind document.pass = none :=
  pass_write_of_name_eq mem_weightColumn (by simp [Field.optional, hc]) hg
    ((names_behind_type hg).2.2.1 hlt)

theorem JobDocument.pass_write_behind_data {x : JobDocument} (hc : x.weightColumn = none)
    (hs : x.validationSize.filter Decimal.isFinite = none) {g : Field JobDocument}
    (hg : g ∈ (record layout).fields) (hlt : "validation_data" < g.name) :
    (g.write x).bind document.pass = none := by
  rcases (names_behind_type hg).2.1 hlt with hname | hlt
  · exact pass_write_of_name_eq mem_validationSize (bind_pass_float_eq_none hs) hg hname
  · exact pass_write_behind_size hc hg hlt

theorem JobDocument.pass_write_behind_type {x : JobDocument} (hc : x.weightColumn = none)
    (hs : x.validationSize.filter Decimal.isFinite = none) (hd : x.validationData = none)
    {g : Field JobDocument} (hg : g ∈ (record layout).fields) (hlt : "type" < g.name) :
    (g.write x).bind document.pass = none := by
  rcases (names_behind_type hg).1 hlt with hname | hlt
  · exact pass_write_of_name_eq mem_validationData (by simp [Field.optional, hd]) hg hname
  · exact pass_write_behind_data hc hs hg hlt

/-- The last entry of a document: of the four fields that can be last, it is that of the last one
that is written. -/
theorem JobDocument.exists_last_of_write {x : JobDocument} {v : Json}
    (hv : document.pass ((record layout).write x) = some v) {n : Node} (hn : v.toNode? = some n) :
    ∃ d k n', n = .table (d ++ [(k, n')]) ∧ n'.lastText? = x.lastText? := by
  have hlast : ∀ {f : Field JobDocument} {w : Json}, f ∈ (record layout).fields →
      (f.write x).bind document.pass = some w →
      (∀ g ∈ (record layout).fields, f.name < g.name → (g.write x).bind document.pass = none) →
      (∀ n', w.toNode? = some n' → n'.lastText? = x.lastText?) →
      ∃ d k n', n = .table (d ++ [(k, n')]) ∧ n'.lastText? = x.lastText? := by
    intro f w hf hw hg htext
    obtain ⟨d, n', hd, hn'⟩ := Record.exists_last_of_write hf hw hg hv hn
    exact ⟨d, f.name, n', hd, htext n' hn'⟩
  cases hc : x.weightColumn with
  | some column =>
    refine hlast mem_weightColumn (w := .text column) ?_ (fun g hg hlt =>
      absurd hlt (names_behind_type hg).2.2.2) ?_
    · simp only [Field.optional, hc, Option.map_some, Option.bind_some]
      exact document.pass_text column
    · rintro _ ⟨⟩
      rw [lastText?, hc]
      rfl
  | none =>
    cases hs : x.validationSize.filter Decimal.isFinite with
    | some y =>
      obtain ⟨hy, hfinite⟩ := Option.filter_eq_some_iff.1 hs
      refine hlast mem_validationSize (w := .float y) ?_ (fun g => pass_write_behind_size hc) ?_
      · simp only [Field.optional, hy, Option.map_some, Option.bind_some]
        exact document.pass_float y hfinite
      · rintro _ ⟨⟩
        rw [lastText?, hc, hs]
        rfl
    | none =>
      cases hd : x.validationData with
      | some i =>
        obtain ⟨w, hw⟩ := i.exists_pass_write
        refine hlast mem_validationData (w := w) ?_ (fun g => pass_write_behind_data hc hs)
          fun n' hn' => ?_
        · simp only [Field.optional, hd, Option.map_some, Option.bind_some, Input.write_codec, hw]
        · rw [Input.lastText?_of_write hw hn', lastText?, hc, hs, hd]
          rfl
      | none =>
        refine hlast mem_type (w := .text x.type) (document.pass_text x.type)
          (fun g => pass_write_behind_type hc hs hd) ?_
        rintro _ ⟨⟩
        rw [lastText?, hc, hs, hd]
        rfl

theorem toNode?_of_documentOf? {v : Json} (h : documentOf? v = some d) :
    v.normal.withoutNulls.toNode? = some (.table d) := by
  unfold documentOf? at h
  split at h
  · next hn =>
    cases h
    exact hn
  · cases h

/-- The last entry of the document of a job. -/
theorem exists_last_of_dump (h : dump layout job = .ok d) :
    ∃ d' k n, d = d' ++ [(k, n)] ∧ n.lastText? = (JobDocument.ofJob layout job).lastText? := by
  have hdocument := (dump_eq_ok_iff.1 h).2
  obtain ⟨d', k, n, hd, hn⟩ := JobDocument.exists_last_of_write (toTree_of_documentOf? hdocument).1
    (toNode?_of_documentOf? hdocument)
  exact ⟨d', k, n, Node.table.inj hd, hn⟩

end Schema

end ForecastJob

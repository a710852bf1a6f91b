import Ners.Http.Response
import Mathlib.Data.List.Induction

set_option autoImplicit false

namespace Ners.Http

inductive Start where
  | new (status : UInt16) (body : Bytes)
  | ok (body : Bytes)
  | notFound
  | internalError

def Start.response : Start → HttpResponse
  | .new status body => .new status body
  | .ok body => .ok body
  | .notFound => .notFound
  | .internalError => .internalError

inductive BuilderCall where
  | withHeader (key value : String)
  | json
  | html

def HttpResponse.apply (r : HttpResponse) : BuilderCall → HttpResponse
  | .withHeader key value => r.withHeader key value
  | .json => r.json
  | .html => r.html

def built (start : Start) (calls : List BuilderCall) : HttpResponse := calls.foldl HttpResponse.apply start.response

def BuilderCall.header : BuilderCall → String × String
  | .withHeader key value => (key, value)
  | .json => ("Content-Type", "application/json")
  | .html => ("Content-Type", "text/html; charset=utf-8")

-- A call sets the header, and no later one replaces it.
def Stays (calls : List BuilderCall) (key value : String) : Prop :=
  ∃ before call after, calls = before ++ call :: after ∧ call.header = (key, value) ∧ ∀ later ∈ after, later.header.1 ≠ key

theorem apply_headers (r : HttpResponse) (call : BuilderCall) :
    (r.apply call).headers = r.headers.insert call.header.1 call.header.2 := by
  cases call <;> rfl

theorem built_snoc (start : Start) (calls : List BuilderCall) (call : BuilderCall) :
    built start (calls ++ [call]) = (built start calls).apply call := List.foldl_concat _ _ _ _

theorem built_rest (start : Start) (calls : List BuilderCall) :
    (built start calls).status = start.response.status ∧ (built start calls).statusText = start.response.statusText ∧
      (built start calls).body = start.response.body := by
  induction calls using List.reverseRecOn with
  | nil => exact ⟨rfl, rfl, rfl⟩
  | append_singleton before call ih =>
      rw [built_snoc]
      cases call <;> exact ih

theorem stays_snoc (calls : List BuilderCall) (call : BuilderCall) (key value : String) :
    Stays (calls ++ [call]) key value ↔ call.header = (key, value) ∨ (call.header.1 ≠ key ∧ Stays calls key value) := by
  constructor
  · rintro ⟨before, set, after, split, header, last⟩
    rcases List.eq_nil_or_concat after with rfl | ⟨after, final, rfl⟩
    · obtain ⟨_, same⟩ := List.append_inj' split rfl
      exact .inl ((List.cons.inj same).1 ▸ header)
    · rw [List.concat_eq_append] at split last
      rw [← List.cons_append, ← List.append_assoc] at split
      obtain ⟨rfl, same⟩ := List.append_inj' split rfl
      obtain ⟨rfl, _⟩ := List.cons.inj same
      refine .inr ⟨last call (by simp), before, set, after, rfl, header, fun later member => ?_⟩
      exact last later (List.mem_append_left _ member)
  · rintro (header | ⟨other, before, set, after, rfl, header, last⟩)
    · exact ⟨calls, call, [], rfl, header, List.forall_mem_nil _⟩
    · refine ⟨before, set, after ++ [call], by simp, header, fun later member => ?_⟩
      rcases List.mem_append.mp member with earlier | final
      · exact last later earlier
      · exact List.mem_singleton.mp final ▸ other

-- The map holds what the last call on a key has set, and what the start has set
-- where no call is on the key.
theorem header_built (start : Start) (calls : List BuilderCall) (key value : String) :
    (built start calls).headers.lookup key = some value ↔
      Stays calls key value ∨ ((∀ call ∈ calls, call.header.1 ≠ key) ∧ start.response.headers.lookup key = some value) := by
  induction calls using List.reverseRecOn with
  | nil =>
      have never : ¬ Stays [] key value := by
        rintro ⟨before, call, after, split, _⟩
        exact absurd split (by simp)
      rw [or_iff_right never, and_iff_right (List.forall_mem_nil _)]
      rfl
  | append_singleton before call ih =>
      rw [built_snoc, apply_headers, stays_snoc, List.forall_mem_append, List.forall_mem_singleton]
      by_cases same : call.header.1 = key
      · subst same
        rw [AList.lookup_insert, Option.some.injEq]
        constructor
        · rintro rfl
          exact .inl (.inl rfl)
        · rintro ((header | ⟨other, _⟩) | ⟨⟨_, other⟩, _⟩)
          · exact congrArg Prod.snd header
          · exact absurd rfl other
          · exact absurd rfl other
      · have apart : call.header ≠ (key, value) := fun header => same (congrArg Prod.fst header)
        rw [AList.lookup_insert_ne (Ne.symm same), ih, or_iff_right apart, and_iff_right same, and_iff_left same]

theorem start_new (start : Start) : ∃ status, start.response = .new status start.response.body := by
  cases start <;> exact ⟨_, rfl⟩

theorem start_header (start : Start) (key value : String) :
    start.response.headers.lookup key = some value ↔
      (key = "Content-Length" ∧ value = toString start.response.body.length) ∨ (key = "Content-Type" ∧ value = "text/plain") := by
  obtain ⟨status, same⟩ := start_new start
  generalize start.response.body = body at same
  rw [same, HttpResponse.new]
  by_cases type : key = "Content-Type"
  · subst type
    rw [AList.lookup_insert, Option.some.injEq, eq_comm]
    exact ⟨fun value => .inr ⟨rfl, value⟩, fun either => (either.resolve_left fun length => absurd length.1 (by decide)).2⟩
  · rw [AList.lookup_insert_ne type, or_iff_left fun either => type either.1]
    by_cases length : key = "Content-Length"
    · subst length
      rw [AList.lookup_insert, Option.some.injEq, eq_comm]
      exact (and_iff_right rfl).symm
    · rw [AList.lookup_insert_ne length, AList.lookup_empty]
      exact iff_of_false nofun fun either => length either.1

theorem order_entry (order : HeaderOrder) (headers : Headers) (key value : String) :
    (key, value) ∈ order.list headers ↔ headers.lookup key = some value := by
  rw [(order.entries headers).mem_iff, List.mem_map]
  refine Iff.trans ?_ AList.mem_lookup_iff.symm
  constructor
  · rintro ⟨⟨k, v⟩, member, same⟩
    cases same
    exact member
  · exact fun member => ⟨⟨key, value⟩, member, rfl⟩

theorem order_nodup (order : HeaderOrder) (headers : Headers) : (order.list headers).Nodup := by
  have keys : (headers.entries.map Sigma.fst).Nodup := headers.nodupKeys
  rw [(order.entries headers).nodup_iff]
  refine List.Nodup.of_map Prod.fst ?_
  rwa [List.map_map]

end Ners.Http

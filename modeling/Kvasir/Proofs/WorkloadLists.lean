import Kvasir.Proofs.CountLists

/-! The workloads of the harness are comma-separated names. A list is read name by
name, up to the first that is none of the three. -/

namespace Kvasir.Bench
open Strings Utf8

/-- The workloads there are. -/
inductive Known : Bytes → Workload → Prop where
  | get : Known (text "get") ⟨text "get", 1⟩
  | set : Known (text "set") ⟨text "set", 0⟩
  | mixed : Known (text "mixed") ⟨text "mixed", nineTenths⟩

/-- A workload goes by one name, which is the one that is given. -/
theorem Known.unique {name : Bytes} {workload other : Workload} (known : Known name workload) (again : Known name other) :
    workload = other := by
  have named : ∀ {name workload}, Known name workload → workload.name = name ∧ workload.readRatio =
      if name = text "get" then 1 else if name = text "set" then 0 else nineTenths := by
    intro name workload known
    cases known <;> exact ⟨rfl, by rfl⟩
  obtain ⟨first, share⟩ := named known
  obtain ⟨last, ratio⟩ := named again
  cases workload
  cases other
  simp_all

section Loop
variable {part : Bytes} {parts : List Bytes} {out : List Workload}

theorem parseWorkloadsLoop_blank (blank : trimSpace part = []) :
    parseWorkloadsLoop (part :: parts) out = parseWorkloadsLoop parts out := by
  rw [parseWorkloadsLoop, if_pos blank]

/-- A name is read as its workload, and is an error if it has none. -/
theorem parseWorkloadsLoop_name (visible : trimSpace part ≠ []) :
    (∃ workload, Known (trimSpace part) workload ∧
        parseWorkloadsLoop (part :: parts) out = parseWorkloadsLoop parts (out ++ [workload])) ∨
      (∀ workload, ¬ Known (trimSpace part) workload) ∧
        parseWorkloadsLoop (part :: parts) out = .error (unknownWorkload (trimSpace part)) := by
  rw [parseWorkloadsLoop, if_neg visible]
  by_cases get : trimSpace part = text "get"
  · rw [if_pos get, get]
    exact .inl ⟨_, .get, rfl⟩
  by_cases set : trimSpace part = text "set"
  · rw [if_neg get, if_pos set, set]
    exact .inl ⟨_, .set, rfl⟩
  by_cases mixed : trimSpace part = text "mixed"
  · rw [if_neg get, if_neg set, if_pos mixed, mixed]
    exact .inl ⟨_, .mixed, rfl⟩
  · rw [if_neg get, if_neg set, if_neg mixed]
    refine .inr ⟨fun workload known => ?_, rfl⟩
    generalize trimSpace part = name at *
    cases known <;> contradiction

/-- All names are read, or the first that is unknown is reported. -/
theorem parseWorkloadsLoop_cases (parts : List Bytes) (out : List Workload) :
    (∃ more, List.Forall₂ Known (nonblank parts) more ∧
        parseWorkloadsLoop parts out = if out ++ more = [] then .error (text "no workloads given") else .ok (out ++ more)) ∨
      ∃ read name rest, nonblank parts = read ++ name :: rest ∧ (∀ known ∈ read, ∃ workload, Known known workload) ∧
        (∀ workload, ¬ Known name workload) ∧ parseWorkloadsLoop parts out = .error (unknownWorkload name) := by
  induction parts generalizing out with
  | nil => exact .inl ⟨[], .nil, by simp [parseWorkloadsLoop]⟩
  | cons part parts ih =>
    by_cases blank : trimSpace part = []
    · rw [parseWorkloadsLoop_blank blank, show nonblank (part :: parts) = nonblank parts by simp [nonblank, blank]]
      exact ih out
    rw [show nonblank (part :: parts) = trimSpace part :: nonblank parts by simp [nonblank, blank]]
    rcases @parseWorkloadsLoop_name part parts out blank with ⟨workload, known, read⟩ | ⟨unknown, failed⟩
    · rw [read]
      rcases ih (out ++ [workload]) with ⟨more, all, parsed⟩ | ⟨before, name, rest, same, knowns, unknown, failed⟩
      · refine .inl ⟨workload :: more, .cons known all, ?_⟩
        rw [parsed, List.append_assoc, List.singleton_append]
      · refine .inr ⟨_ :: before, name, rest, by rw [same]; rfl, ?_, unknown, failed⟩
        exact List.forall_mem_cons.mpr ⟨⟨workload, known⟩, knowns⟩
    · exact .inr ⟨[], _, _, rfl, by simp, unknown, failed⟩

end Loop

/-- Two ways to cut a list at its first bad item are one. -/
private theorem first_bad {α : Type} {good : α → Prop} {first last later other : List α} {item found : α}
    (same : first ++ item :: last = later ++ found :: other) (fine : ∀ x ∈ first, good x) (alsoFine : ∀ x ∈ later, good x)
    (bad : ¬ good item) (alsoBad : ¬ good found) : item = found := by
  rcases List.append_eq_append_iff.mp same with ⟨middle, rfl, cut⟩ | ⟨middle, rfl, cut⟩
  · cases middle with
    | nil => exact (List.cons.inj cut).1
    | cons head middle =>
      obtain ⟨rfl, _⟩ := List.cons.inj cut
      exact absurd (alsoFine item (by simp)) bad
  · cases middle with
    | nil => exact (List.cons.inj cut).1.symm
    | cons head middle =>
      obtain ⟨rfl, _⟩ := List.cons.inj cut
      exact absurd (fine found (by simp)) alsoBad

/-- Exactly the lists of known names are accepted, in their order. Of any other list the
error says that it is empty, or quotes its first unknown name. -/
theorem parseWorkloads_exact (s : Bytes) :
    (∀ out, parseWorkloads s = .ok out ↔ out ≠ [] ∧ List.Forall₂ Known (fields s) out) ∧
    ∀ message, parseWorkloads s = .error message ↔ (fields s = [] ∧ message = text "no workloads given") ∨
      ∃ read name rest, fields s = read ++ name :: rest ∧ (∀ known ∈ read, ∃ workload, Known known workload) ∧
        (∀ workload, ¬ Known name workload) ∧ message = unknownWorkload name := by
  have knowns : ∀ {names : List Bytes} {out : List Workload}, List.Forall₂ Known names out →
      ∀ name ∈ names, ∃ workload, Known name workload := by
    intro names out all
    induction all with
    | nil => simp
    | cons known _ ih => exact List.forall_mem_cons.mpr ⟨⟨_, known⟩, ih⟩
  have right : Relator.RightUnique Known := fun name workload other known again => known.unique again
  rcases parseWorkloadsLoop_cases (s.splitOn comma) [] with ⟨more, all, parsed⟩ | ⟨read, name, rest, cut, fine, unknown, failed⟩
  · rw [parseWorkloads, parsed, List.nil_append]
    have length : (fields s).length = more.length := all.length_eq
    by_cases none : more = []
    · have blank : fields s = [] := List.length_eq_zero_iff.mp (by rw [length, none]; rfl)
      rw [if_pos none, blank]
      refine ⟨fun out => ⟨nofun, fun ⟨nonempty, listed⟩ => ?_⟩, fun message => ⟨fun same => ?_, fun said => ?_⟩⟩
      · exact absurd (List.forall₂_nil_left_iff.mp listed) nonempty
      · exact .inl ⟨rfl, (Except.error.inj same).symm⟩
      · rcases said with ⟨_, rfl⟩ | ⟨_, _, _, cut, _⟩
        · rfl
        · exact absurd cut (by simp)
    · rw [if_neg none]
      refine ⟨fun out => ⟨fun same => ?_, fun ⟨_, listed⟩ => ?_⟩, fun message => ⟨nofun, fun said => ?_⟩⟩
      · obtain rfl := Except.ok.inj same
        exact ⟨none, all⟩
      · rw [Relator.RightUnique.forall₂ right all listed]
      · rcases said with ⟨blank, _⟩ | ⟨read, name, rest, cut, _, unknown, _⟩
        · exact absurd (List.length_eq_zero_iff.mp (by rw [← length, blank]; rfl)) none
        · obtain ⟨workload, known⟩ := knowns all name (by rw [show nonblank _ = fields s from rfl, cut]; simp)
          exact absurd known (unknown workload)
  · have cut : fields s = read ++ name :: rest := cut
    rw [parseWorkloads, failed, cut]
    refine ⟨fun out => ⟨nofun, fun ⟨_, listed⟩ => ?_⟩, fun message => ⟨fun same => ?_, fun said => ?_⟩⟩
    · obtain ⟨workload, known⟩ := knowns listed name (by simp)
      exact absurd known (unknown workload)
    · exact .inr ⟨read, name, rest, rfl, fine, unknown, (Except.error.inj same).symm⟩
    · rcases said with ⟨empty, _⟩ | ⟨before, other, later, same, good, strange, rfl⟩
      · exact absurd empty (by simp)
      · rw [first_bad same fine good (fun ⟨workload, known⟩ => unknown workload known)
          (fun ⟨workload, known⟩ => strange workload known)]

end Kvasir.Bench

import SheetLint.Issue.Basic

/-! Collections of issues that keep the order of arrival, and the first of any that are the same. -/
namespace SheetLint

/-- Issues of which no two are the same. -/
structure Collector where
  issues : List Issue
  distinct : issues.Nodup

namespace Collector

def empty : Collector := ⟨[], List.nodup_nil⟩

/-- Adds an issue at the end, unless it is there. -/
def add (collector : Collector) (issue : Issue) : Collector :=
  if member : issue ∈ collector.issues then collector
  else ⟨collector.issues ++ [issue], by
    rw [List.nodup_append]
    refine ⟨collector.distinct, by simp, ?_⟩
    intro old present new single same
    simp only [List.mem_singleton] at single
    exact member (single ▸ same ▸ present)⟩

def extend (collector : Collector) (issues : List Issue) : Collector :=
  issues.foldl add collector

/-- A collector with the issues of another one added. -/
def merge (collector other : Collector) : Collector := collector.extend other.issues

def ofList (issues : List Issue) : Collector := empty.extend issues

def size (collector : Collector) : Nat := collector.issues.length

def contains (collector : Collector) (issue : Issue) : Bool := collector.issues.contains issue

theorem mem_add {collector : Collector} {issue other : Issue} :
    other ∈ (collector.add issue).issues ↔ other ∈ collector.issues ∨ other = issue := by
  simp only [add]
  split
  · rename_i member
    constructor
    · exact Or.inl
    · rintro (present | rfl)
      · exact present
      · exact member
  · simp

theorem extend_nil (collector : Collector) : collector.extend [] = collector := rfl

theorem extend_append (collector : Collector) (first second : List Issue) :
    collector.extend (first ++ second) = (collector.extend first).extend second := by
  simp [extend]

end Collector
end SheetLint

set_option autoImplicit false

/-! # Phases

The stages of a document on its way to the rendered text, in the order in which it goes through
them. Every operation belongs to certain phases and is refused in the others.
-/

namespace Inlay

/-- A stage of a document. -/
inductive Phase where
  /-- Nothing is loaded. -/
  | init
  /-- The source was loaded but not installed. -/
  | readSourceFile
  | hasSourceText
  /-- The source is being split into segments, or could not be. -/
  | tokenizing
  | tokenized
  /-- Some inserts have been started and are not settled. -/
  | fetchingInserts
  | fetchedAllInserts
  | segmentsMerged
  | runningHooks
  | done
  deriving DecidableEq, Repr, Inhabited

namespace Phase

/-- The place of a phase in the order. -/
def rank : Phase → Nat
  | .init => 0
  | .readSourceFile => 1
  | .hasSourceText => 2
  | .tokenizing => 3
  | .tokenized => 4
  | .fetchingInserts => 5
  | .fetchedAllInserts => 6
  | .segmentsMerged => 7
  | .runningHooks => 8
  | .done => 9

theorem rank_le (p : Phase) : p.rank ≤ 9 := by cases p <;> decide

instance : LE Phase := ⟨fun p q => p.rank ≤ q.rank⟩

instance : LT Phase := ⟨fun p q => p.rank < q.rank⟩

instance (p q : Phase) : Decidable (p ≤ q) := inferInstanceAs (Decidable (p.rank ≤ q.rank))

instance (p q : Phase) : Decidable (p < q) := inferInstanceAs (Decidable (p.rank < q.rank))

/-- The name of a phase in messages. -/
def name : Phase → String
  | .init => "init"
  | .readSourceFile => "read_source_file"
  | .hasSourceText => "has_source_text"
  | .tokenizing => "tokenizing"
  | .tokenized => "tokenized"
  | .fetchingInserts => "fetching_inserts"
  | .fetchedAllInserts => "fetched_all_inserts"
  | .segmentsMerged => "segments_merged"
  | .runningHooks => "running_hooks"
  | .done => "done"

/-- The name of a phase in the summary of a document. -/
def title : Phase → String
  | .init => "Init"
  | .readSourceFile => "ReadSourceFile"
  | .hasSourceText => "HasSourceText"
  | .tokenizing => "Tokenizing"
  | .tokenized => "Tokenized"
  | .fetchingInserts => "FetchingInserts"
  | .fetchedAllInserts => "FetchedAllInserts"
  | .segmentsMerged => "SegmentsMerged"
  | .runningHooks => "RunningHooks"
  | .done => "Done"

end Phase

end Inlay

import AccelProfile.Proofs.FiniteEvents
import AccelProfile.Proofs.TraceLines

/-!
# Traces survive being written and read

Writing events and reading them is the identity on lists of finite events. Reading gives
finite events only, so a trace that was read once can be written and read again as often as
one likes, whatever spelling, order of members and blank space the first one had.
-/

namespace AccelProfile.Trace

/-- Finite events come back from a trace that holds their texts on lines of their own. Every
trace that is read gives finite events, so these come back as well when they are written
again. -/
theorem parse_undoes_writing :
    (∀ events : List Event, (∀ event ∈ events, event.Finite) →
      parse (written events) = .ok events ∧ parse (joined events) = .ok events) ∧
    ∀ (bytes : List UInt8) (events : List Event), parse bytes = .ok events →
      (∀ event ∈ events, event.Finite) ∧ parse (written events) = .ok events ∧
        parse (joined events) = .ok events := by
  refine ⟨fun events finite => ⟨parse_of_written finite, parse_of_joined finite⟩, ?_⟩
  intro bytes events parsed
  have finite := finite_of_parse parsed
  exact ⟨finite, parse_of_written finite, parse_of_joined finite⟩

/-- Events at the ends of the words, without what may be left out, and with a zero that has
a sign. -/
def edgeEvents : List Event :=
  [.commit ⟨0xFFFFFFFFFFFFFFFF⟩ ⟨0xFFFFFFFF⟩ true false, .cycleEnd 0 none,
    .area ⟨0.1, -0.0, 1e300, 5e-324⟩]

theorem edge_events_read_back :
    (parse (written edgeEvents) = .ok edgeEvents ∧ parse (joined edgeEvents) = .ok edgeEvents) ∧
      ∀ event ∈ edgeEvents, event.Finite := by
  have finite : ∀ event ∈ edgeEvents, event.Finite := by
    intro event inside
    simp only [edgeEvents, List.mem_cons, List.not_mem_nil, or_false] at inside
    rcases inside with rfl | rfl | rfl
    · trivial
    · trivial
    · exact ⟨by decide +kernel, by decide +kernel, by decide +kernel, by decide +kernel⟩
  have readBack := parse_undoes_writing.1 edgeEvents finite
  exact ⟨readBack, (parse_undoes_writing.2 (written edgeEvents) edgeEvents readBack.1).1⟩

end AccelProfile.Trace

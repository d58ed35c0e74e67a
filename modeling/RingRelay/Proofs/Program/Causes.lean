import Mathlib.Data.List.Chain
import RingRelay.Proofs.Program.Course
/- The causes of a failure, and the one line that reports it.

   An error may name another one as its source, and following the sources gives the chain of its
   causes. The texts of errors are made without the chain, and the lists of texts without either.
   Here they are brought together: the lists are the texts of the chains, and each text of a chain
   is the end of the text above it, so the last line of a run that fails has all of them
   (`causes_reported`). A failed flush names no source, but its text ends with the cause as well.

   The chains end at errors of the machine. What the machine reports is a text here and has no
   source of its own. -/
namespace RingRelay

/-- An error of any level. -/
inductive Cause
  | failure (error : Failure)
  | relay (error : RelayError)
  | ring (error : RingError)
  | allocation (error : AllocationFault)
  | io (error : IoError)

namespace Cause

def message : Cause → String
  | failure error => error.message
  | relay error => error.message
  | ring error => error.message
  | allocation error => error.message
  | io error => error.message

/-- The error that an error names as its source. An error of the machine names none. -/
def source? : Cause → Option Cause
  | failure (.relay error) => some (.relay error)
  | failure (.io error) => some (.io error)
  | relay (.ring error) => some (.ring error)
  | ring (.allocation _ error) => some (.allocation error)
  | ring (.endpoint _ _ error) => some (.io error)
  | _ => none

/-- How many errors there can be below an error. -/
def depth : Cause → Nat
  | failure _ => 3
  | relay _ => 2
  | ring _ => 1
  | allocation _ => 0
  | io _ => 0

/-- The text of an error ends with the text of another one. -/
def EndsWith (above below : Cause) : Prop := ∃ lead, above.message = lead ++ below.message

variable {error above below : Cause}

theorem depth_lt_of_source? (h : above.source? = some below) : below.depth < above.depth := by
  unfold source? at h
  split at h
  all_goals simp only [Option.some.injEq, reduceCtorEq] at h
  all_goals
    subst h
    simp [depth]

theorem endsWith_of_source? (h : above.source? = some below) : above.EndsWith below := by
  unfold source? at h
  split at h
  all_goals simp only [Option.some.injEq, reduceCtorEq] at h
  all_goals
    subst h
    exact ⟨_, rfl⟩

/-- The causes of an error, from its source on downwards. -/
def chain (above : Cause) : List Cause :=
  match _h : above.source? with
  | none => []
  | some below => below :: below.chain
termination_by above.depth
decreasing_by exact depth_lt_of_source? _h

theorem chain_of_none (h : error.source? = none) : error.chain = [] := by
  unfold chain
  split
  · rfl
  · next h' => exact nomatch h.symm.trans h'

theorem chain_of_some (h : above.source? = some below) : above.chain = below :: below.chain := by
  rw [chain]
  split
  · next h' => exact nomatch h.symm.trans h'
  · next h' => rw [Option.some.inj (h.symm.trans h')]

/-! ## The texts of a chain -/

theorem EndsWith.trans {middle : Cause} (h : above.EndsWith middle) (h' : middle.EndsWith below) :
    above.EndsWith below := by
  obtain ⟨lead, habove⟩ := h
  obtain ⟨lead', hmiddle⟩ := h'
  exact ⟨lead ++ lead', by rw [habove, hmiddle, String.append_assoc]⟩

instance : Trans EndsWith EndsWith EndsWith where
  trans := EndsWith.trans

/-- Each text of a chain is the end of the text above it. -/
theorem isChain_endsWith (error : Cause) : List.IsChain EndsWith (error :: error.chain) := by
  induction error using chain.induct with
  | case1 error h =>
    rw [chain_of_none h]
    exact .singleton error
  | case2 error below h ih =>
    rw [chain_of_some h]
    exact .cons_cons (endsWith_of_source? h) ih

/-- Each cause is the end of the text on top. -/
theorem endsWith_of_mem_chain (h : below ∈ error.chain) : error.EndsWith below :=
  (isChain_endsWith error).rel_cons h

/-- A failed flush has its cause in its text only. -/
theorem endsWith_flush (cause : IoError) : (relay (.flush cause)).EndsWith (io cause) := ⟨_, rfl⟩

/-! ## The lists of texts -/

/-- The texts of the errors below an error, as each kind of error lists them. -/
def sources : Cause → List String
  | failure error => error.sources
  | relay error => error.sources
  | ring error => error.sources
  | allocation _ => []
  | io _ => []

theorem sources_eq (error : Cause) :
    error.sources = error.source?.elim [] fun below => below.message :: below.sources := by
  cases error with
  | failure error => cases error <;> rfl
  | relay error => cases error <;> rfl
  | ring error => cases error <;> rfl
  | allocation error => rfl
  | io error => rfl

/-- The lists are the texts of the chains. -/
theorem map_message_chain (error : Cause) : error.chain.map message = error.sources := by
  induction error using chain.induct with
  | case1 error h => rw [chain_of_none h, sources_eq, h, List.map_nil, Option.elim_none]
  | case2 error below h ih =>
    rw [chain_of_some h, sources_eq, h, List.map_cons, ih, Option.elim_some]

end Cause

/-! ## The report of a run -/

namespace Program

/-- Whatever the failure, the texts that are listed below it are those of the chain of its causes,
    and each text of the chain is the end of the text above it, so that its line ends with each of
    its causes. The chain of a failed relay is the error of the relay with its own chain, and the
    chain of a ring that failed a relay is the error of the ring with its own. A failed flush has no
    chain, and its line ends with the cause all the same. And a run of the program that does not end
    well has such a line at the end of its standard error stream, for the failure that it met where
    it ended: with its settings, its log, its input, its output or its relay. -/
theorem causes_reported :
    (∀ failure : Failure,
      (Cause.failure failure).chain.map Cause.message = failure.sources ∧
      List.IsChain Cause.EndsWith (.failure failure :: (Cause.failure failure).chain) ∧
      ∀ text ∈ failure.sources, ∃ lead, failure.message = lead ++ text) ∧
    (∀ error : RelayError,
      (Cause.failure (.relay error)).chain = .relay error :: (Cause.relay error).chain ∧
      (Cause.relay error).chain.map Cause.message = error.sources) ∧
    (∀ error : RingError,
      (Cause.relay (.ring error)).chain = .ring error :: (Cause.ring error).chain ∧
      (Cause.ring error).chain.map Cause.message = error.sources) ∧
    (∀ cause : IoError,
      (Cause.relay (.flush cause)).source? = none ∧
      ∃ lead, (Failure.relay (.flush cause)).message = lead ++ cause.message) ∧
    (∀ (ρ ω : Type) (streams : Streams ρ ω) host words args report,
      Arguments.parse words = .ok args → EndsWith streams host words report →
      report.exitCode ≠ 0 →
      ∃ failure, Ending streams host args (some failure) ∧ report.Fails failure) := by
  refine ⟨?_, ?_, ?_, ?_, ?_⟩
  · intro failure
    refine ⟨Cause.map_message_chain _, Cause.isChain_endsWith _, ?_⟩
    intro text htext
    have hchain : (Cause.failure failure).chain.map Cause.message = failure.sources :=
      Cause.map_message_chain _
    rw [← hchain] at htext
    obtain ⟨below, hbelow, rfl⟩ := List.mem_map.mp htext
    exact Cause.endsWith_of_mem_chain hbelow
  · intro error
    exact ⟨Cause.chain_of_some rfl, Cause.map_message_chain _⟩
  · intro error
    exact ⟨Cause.chain_of_some rfl, Cause.map_message_chain _⟩
  · intro cause
    have hrelay : (Cause.failure (.relay (.flush cause))).EndsWith (.relay (.flush cause)) :=
      Cause.endsWith_of_source? rfl
    exact ⟨rfl, hrelay.trans (Cause.endsWith_flush cause)⟩
  · intro ρ ω streams host words args report parsed hends hcode
    obtain ⟨rounds, hrun⟩ := hends
    rw [run_of_parsed parsed] at hrun
    obtain ⟨ending, hending, htells⟩ := exists_ending hrun
    cases ending with
    | none => exact absurd htells hcode
    | some failure => exact ⟨failure, hending, htells⟩

/-- A machine that knows no home directory. -/
def homelessHost : Host where
  environment := {}
  files := ⟨[], []⟩
  memory := 0
  processId := "1"

theorem causes_reported_of_homelessHost :
    Arguments.parse [] = .ok {} ∧ ∃ report,
      EndsWith (Streams.stored []) homelessHost [] report ∧ report.exitCode ≠ 0 ∧
      ∃ failure, Ending (Streams.stored []) homelessHost {} (some failure) ∧
        report.Fails failure := by
  have parsed : Arguments.parse [] = .ok {} := rfl
  let report := failEarly homelessHost.files (.config ConfigError.noHome.report)
  have hends : EndsWith (Streams.stored []) homelessHost [] report := ⟨0, rfl⟩
  have hcode : report.exitCode ≠ 0 := by decide
  exact ⟨parsed, report, hends, hcode,
    causes_reported.2.2.2.2 _ _ _ _ _ _ _ parsed hends hcode⟩

end Program

end RingRelay

import Rulebook.Proofs.DepthLimit
import Rulebook.Proofs.EngineStep
import Rulebook.Shared

/-!
# All ways to build a rule

A rule can be parsed, asked of the shared cache, built under the default limits, or built by an
engine of the default configuration, which has a cache of its own.  A session is the shared cache
beside such an engine, and what is asked of the two may come in any order.  Neither cache can be
seen: each agrees with the parser under the same depth limit, requests to one of them leave the
other alone, and so both are in agreement after every history.

What is left of the four ways is the limit on the length of a rule.  The shared cache has none; the
other two check it on the text as given, before the text is looked at and before a cache is asked,
so the shared cache may well hold a rule that is too long for an engine.

* `Session.handle`, `Session.run`: a shared cache and an engine, asked in any order.
* `Session.Agrees`: the invariant of sessions.
* `Session.after_entryPoints`: what the four ways give after every history.
-/

namespace Rulebook

/-! ## The limit on length -/

namespace Config

variable {c : Config} {rule : String}

/-- A rule that is not too long is parsed. -/
theorem parseRule_of_size_le (h : rule.utf8ByteSize ≤ c.maxRuleLength) :
    c.parseRule rule = Rule.parse c.maxDepth rule := by
  rw [parseRule, checkLength, if_neg (Nat.not_lt.mpr h)]
  rfl

/-- A rule that is too long is refused for that, whatever its text. -/
theorem parseRule_of_lt_size (h : c.maxRuleLength < rule.utf8ByteSize) :
    c.parseRule rule = .error (.limit (.ruleLength rule.utf8ByteSize c.maxRuleLength)) := by
  rw [parseRule, checkLength, if_pos h]
  rfl

end Config

/-! ## The shared cache -/

namespace Shared

variable {c : Cache}

/-- The answer of a rule from a cache that agrees with the parser. -/
theorem fst_check (h : c.Agrees Rule.parseDefault) (pick : Nat) (record : Record) (rule : String) :
    (check c pick record rule).1 = (Rule.parseDefault rule).bind (Tree.evaluate record) := by
  show (getOrParse c pick rule).1.bind (Tree.evaluate record) = _
  rw [getOrParse, h.fst_getOrParse]

/-- Every request keeps the shared cache in agreement with the parser. -/
theorem agrees_handle (h : c.Agrees Rule.parseDefault) (pick : Nat) (request : Request) :
    (handle c pick request).2.Agrees Rule.parseDefault := by
  cases request with
  | getOrParse rule => exact h.getOrParse pick rule
  | check record rule => exact h.getOrParse pick rule
  | clear => exact Cache.agrees_clear _ c

end Shared

/-! ## Sessions -/

/-- The shared cache and an engine beside it. -/
structure Session where
  shared : Cache
  engine : Engine

namespace Session

/-- Nothing has been asked yet; the engine has the default configuration. -/
def initial : Session := ⟨Shared.initial, .default⟩

/-- What can be asked in a session. -/
inductive Request where
  | shared (request : Shared.Request)
  | engine (request : Engine.Request)

/-- What is answered in a session. -/
inductive Reply where
  | shared (reply : Shared.Reply)
  | engine (reply : Engine.Reply)

/-- The answer to a request, and the session after it. -/
def handle (s : Session) (pick : Nat) : Request → Reply × Session
  | .shared request =>
    let (reply, after) := Shared.handle s.shared pick request
    (.shared reply, { s with shared := after })
  | .engine request =>
    let (reply, after) := s.engine.handle pick request
    (.engine reply, { s with engine := after })

/-- The answers to a history of requests, each with the pick for an eviction, and the session after
it. -/
def run (s : Session) : List (Nat × Request) → List Reply × Session
  | [] => ([], s)
  | (pick, request) :: rest =>
    let (reply, next) := s.handle pick request
    let (replies, last) := next.run rest
    (reply :: replies, last)

/-- The session after a history. -/
def after (history : List (Nat × Request)) : Session := (initial.run history).2

/-- Both caches hold what rules parse to, and the engine has its configuration. -/
structure Agrees (s : Session) : Prop where
  shared : s.shared.Agrees Rule.parseDefault
  engine : s.engine.CacheAgrees
  config : s.engine.config = .default

variable {s : Session}

theorem agrees_initial : initial.Agrees where
  shared := Cache.agrees_new _ _
  engine := Engine.cacheAgrees_new _
  config := rfl

/-- A request changes one side of a session and keeps it in agreement. -/
theorem Agrees.handle (h : s.Agrees) (pick : Nat) (request : Request) :
    (s.handle pick request).2.Agrees := by
  cases request with
  | shared request =>
    exact ⟨Shared.agrees_handle h.shared pick request, h.engine, h.config⟩
  | engine request =>
    exact ⟨h.shared, h.engine.handle pick request,
      (Engine.config_handle s.engine pick request).trans h.config⟩

/-- Both caches agree with the parser after every history. -/
theorem Agrees.run (h : s.Agrees) (history : List (Nat × Request)) :
    (s.run history).2.Agrees := by
  induction history generalizing s with
  | nil => exact h
  | cons entry history ih =>
    obtain ⟨pick, request⟩ := entry
    exact ih (h.handle pick request)

/-- Building a rule with the engine of a session is building it under the default limits. -/
theorem Agrees.fst_build (h : s.Agrees) (pick : Nat) (rule : String) :
    (s.engine.build pick rule).1 = Rule.build rule := by
  rw [Engine.build_eq_parseRule h.engine, h.config, Rule.build]

/-- After every history of the shared cache and of an engine of the default configuration, the
shared cache gives what a rule parses to, and checks a record by evaluating that.  A rule of at most
4096 bytes is built likewise, with an engine or without, and a longer one is refused for its length
by both. -/
theorem after_entryPoints (history : List (Nat × Request)) (pick : Nat) (rule : String)
    (record : Record) :
    (Shared.getOrParse (after history).shared pick rule).1 = Rule.parseDefault rule ∧
      (Shared.check (after history).shared pick record rule).1 =
        (Rule.parseDefault rule).bind (Tree.evaluate record) ∧
      (rule.utf8ByteSize ≤ 4096 →
        Rule.build rule = Rule.parseDefault rule ∧
          ((after history).engine.build pick rule).1 = Rule.parseDefault rule ∧
          (Shared.check (after history).shared pick record rule).1 =
            (Rule.build rule).bind (Tree.evaluate record)) ∧
      (4096 < rule.utf8ByteSize →
        Rule.build rule = .error (.limit (.ruleLength rule.utf8ByteSize 4096)) ∧
          ((after history).engine.build pick rule).1 =
            .error (.limit (.ruleLength rule.utf8ByteSize 4096))) := by
  have hagrees : (after history).Agrees := agrees_initial.run history
  have hcheck := Shared.fst_check hagrees.shared pick record rule
  have hbuild := hagrees.fst_build pick rule
  refine ⟨hagrees.shared.fst_getOrParse pick rule, hcheck, fun hshort => ?_, fun hlong => ?_⟩
  · have hparse : Rule.build rule = Rule.parseDefault rule := Config.parseRule_of_size_le hshort
    exact ⟨hparse, hbuild.trans hparse, by rw [hcheck, hparse]⟩
  · have herror : Rule.build rule = .error (.limit (.ruleLength rule.utf8ByteSize 4096)) :=
      Config.parseRule_of_lt_size hlong
    exact ⟨herror, hbuild.trans herror⟩

/-- A condition with blanks after it. -/
def padded (blanks : Nat) : String :=
  String.ofList (['a', '=', '\x27', 'x', '\x27'] ++ List.replicate blanks ' ')

theorem lt_size_padded (blanks : Nat) : blanks < (padded blanks).utf8ByteSize := by
  refine Nat.lt_of_lt_of_le ?_ (Rule.length_le_utf8ByteSize _)
  rw [List.length_append, List.length_replicate]
  exact Nat.lt_add_of_pos_left (by decide)

theorem trim_padded (blanks : Nat) :
    Text.trim (padded blanks).toList = ['a', '=', '\x27', 'x', '\x27'] := by
  have htight : Rule.Tight ['a', '=', '\x27', 'x', '\x27'] :=
    ⟨List.cons_ne_nil _ _, by simp [Text.isBlank], by simp [Text.isBlank]⟩
  have hblank : Rule.Blank (List.replicate blanks ' ') := by
    intro c hc
    rw [List.eq_of_mem_replicate hc]
    rfl
  rw [padded, String.toList_ofList]
  exact htight.trim_append_right hblank

theorem parseDefault_padded (blanks : Nat) :
    Rule.parseDefault (padded blanks) = .ok (.leaf ⟨"a", .equal, .text "x", "a='x'"⟩) := by
  rw [Rule.parseDefault, Rule.parse, trim_padded]
  decide +kernel

/-- The shared cache gives the tree of a rule that is too long for an engine; without its blanks the
rule is built by the engine as well. -/
theorem after_entryPoints_padded :
    let history : List (Nat × Request) :=
      [(0, .shared (.getOrParse (padded 4096))), (0, .engine (.register "r" (padded 4096)))]
    let tree := Tree.leaf ⟨"a", .equal, .text "x", "a='x'"⟩
    (Shared.getOrParse (after history).shared 0 (padded 4096)).1 = .ok tree ∧
      ((after history).engine.build 0 (padded 4096)).1 =
        .error (.limit (.ruleLength (padded 4096).utf8ByteSize 4096)) ∧
      ((after history).engine.build 0 "a='x'").1 = .ok tree := by
  intro history tree
  have htree : Rule.parseDefault "a='x'" = .ok tree := by decide +kernel
  obtain ⟨hshared, -, -, hlong⟩ := after_entryPoints history 0 (padded 4096) .empty
  obtain ⟨-, -, hshort, -⟩ := after_entryPoints history 0 "a='x'" .empty
  exact ⟨hshared.trans (parseDefault_padded 4096), (hlong (lt_size_padded 4096)).2,
    (hshort (by decide)).2.1.trans htree⟩

end Session

end Rulebook

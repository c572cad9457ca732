import Reckoner.Expr.Arena
import Reckoner.Expr.Eval
import Reckoner.Expr.Tree

/-!
# Nodes before and after a release

An arena is asked to build nodes, to be entered and left, and to be released, in any order, and the
nodes that were built are looked at in between. Each request does one of three things: it counts one
node more, it closes the arena for good, or it changes nothing. So up to the first close the arena
holds exactly the nodes that were built, and from there on it is empty and stays released. What a
node is worth, how it is drawn and what it equals is never affected.
-/

namespace Reckoner

/-- What a node is to be built from. -/
inductive Blueprint where
  /-- A number node of a value. -/
  | number (value : Value) (span : Span)
  /-- A number node of plain data, which is no value. -/
  | plain (given : Scalar) (span : Span)
  /-- The node of a name. -/
  | name (text : String) (span : Span)
  /-- A binary node of a kind that is given by a scalar. -/
  | binary (kind : Scalar) (left right : Expr) (span : Span)
  /-- A unary node of a kind that is given by a scalar. -/
  | signed (kind : Scalar) (operand : Expr) (span : Span)
  /-- The call of a function that is given by its name. -/
  | call (function : String) (args : List Expr) (span : Span)

namespace Blueprint

/-- The node that is built, or why there is none. -/
def build : Blueprint → Except BuildError Expr
  | number v s => .ok (.literal v s)
  | plain given _ => .error (.notAValue given)
  | name n s => .ok (.name n s)
  | binary kind l r s => Expr.binaryOf kind l r s
  | signed kind x s => Expr.signedOf kind x s
  | call f args s => Expr.callOf f args s

/-- The node that is described where all that is given is acceptable: a value, the name of an
operator or of a sign as the kind, the name of a function. -/
inductive Describes : Blueprint → Expr → Prop where
  /-- A number with a value. -/
  | number (v : Value) (s : Span) : Describes (.number v s) (.literal v s)
  /-- Any name. -/
  | name (n : String) (s : Span) : Describes (.name n s) (.name n s)
  /-- The kind is the name of an operator. -/
  | binary (op : BinaryOp) (l r : Expr) (s : Span) :
      Describes (.binary (.text op.name) l r s) (.binary op l r s)
  /-- The kind is the name of a sign. -/
  | signed (sg : Sign) (x : Expr) (s : Span) :
      Describes (.signed (.text sg.name) x s) (.signed sg x s)
  /-- The name is that of a function. -/
  | call (f : Function) (args : List Expr) (s : Span) :
      Describes (.call f.name args s) (.call f args s)

/-- Why a node is rejected where something that is given is not acceptable. -/
inductive RejectedFor : Blueprint → BuildError → Prop where
  /-- A number needs a value. -/
  | notAValue (given : Scalar) (s : Span) : RejectedFor (.plain given s) (.notAValue given)
  /-- The kind is not the name of an operator. -/
  | unknownOperator {kind : Scalar} (h : ∀ op : BinaryOp, kind ≠ .text op.name) (l r : Expr)
      (s : Span) : RejectedFor (.binary kind l r s) (.unknownOperator kind)
  /-- The kind is not the name of a sign. -/
  | unknownSign {kind : Scalar} (h : ∀ sg : Sign, kind ≠ .text sg.name) (x : Expr) (s : Span) :
      RejectedFor (.signed kind x s) (.unknownSign kind)
  /-- The name is not that of a function. -/
  | unknownFunction {n : String} (h : ∀ f : Function, n ≠ f.name) (args : List Expr) (s : Span) :
      RejectedFor (.call n args s) (.unknownFunction n)

end Blueprint

/-- The name of an operator is its kind. -/
theorem BinaryOp.ofScalar_name (op : BinaryOp) : ofScalar (.text op.name) = .ok op := by
  cases op <;> rfl

/-- No other scalar is the kind of an operator. -/
theorem BinaryOp.ofScalar_of_ne {kind : Scalar} (h : ∀ op : BinaryOp, kind ≠ .text op.name) :
    ofScalar kind = .error (.unknownOperator kind) := by
  have hnone : (BinaryOp.all.find? fun op => kind == .text op.name) = none :=
    List.find?_eq_none.mpr fun op _ => by simpa using h op
  rw [ofScalar, hnone]

/-- The name of a sign is its kind. -/
theorem Sign.ofScalar_name (sg : Sign) : ofScalar (.text sg.name) = .ok sg := by
  cases sg <;> rfl

/-- No other scalar is the kind of a sign. -/
theorem Sign.ofScalar_of_ne {kind : Scalar} (h : ∀ sg : Sign, kind ≠ .text sg.name) :
    ofScalar kind = .error (.unknownSign kind) := by
  have hnone : (Sign.all.find? fun sg => kind == .text sg.name) = none :=
    List.find?_eq_none.mpr fun sg _ => by simpa using h sg
  rw [ofScalar, hnone]

/-- The name of a function is known. -/
theorem Function.ofName_name (f : Function) : ofName f.name = .ok f := by
  rw [ofName, ofName?_name]

/-- No other name is. -/
theorem Function.ofName_of_ne {n : String} (h : ∀ f : Function, n ≠ f.name) :
    ofName n = .error (.unknownFunction n) := by
  have hnone : ofName? n = none :=
    Option.eq_none_iff_forall_ne_some.mpr fun f hf => h f (name_of_ofName? hf).symm
  rw [ofName, hnone]

namespace Blueprint

variable {b : Blueprint} {e : Expr} {x : BuildError}

/-- The node that is described is built. -/
theorem build_of_describes (h : b.Describes e) : b.build = .ok e := by
  cases h with
  | number | name => rfl
  | binary op => simp [build, Expr.binaryOf, op.ofScalar_name, Except.map]
  | signed sg => simp [build, Expr.signedOf, sg.ofScalar_name, Except.map]
  | call f => simp [build, Expr.callOf, f.ofName_name, Except.map]

/-- What is rejected is not built. -/
theorem build_of_rejectedFor (h : b.RejectedFor x) : b.build = .error x := by
  cases h with
  | notAValue => rfl
  | unknownOperator h => simp [build, Expr.binaryOf, BinaryOp.ofScalar_of_ne h, Except.map]
  | unknownSign h => simp [build, Expr.signedOf, Sign.ofScalar_of_ne h, Except.map]
  | unknownFunction h => simp [build, Expr.callOf, Function.ofName_of_ne h, Except.map]

/-- A node is described, or there is a reason to reject it. -/
theorem describes_or_rejectedFor (b : Blueprint) :
    (∃ e, b.Describes e) ∨ ∃ x, b.RejectedFor x := by
  cases b with
  | number v s => exact .inl ⟨_, .number v s⟩
  | plain given s => exact .inr ⟨_, .notAValue given s⟩
  | name n s => exact .inl ⟨_, .name n s⟩
  | binary kind l r s =>
    by_cases h : ∃ op : BinaryOp, kind = .text op.name
    · obtain ⟨op, rfl⟩ := h
      exact .inl ⟨_, .binary op l r s⟩
    · exact .inr ⟨_, .unknownOperator (not_exists.mp h) l r s⟩
  | signed kind x s =>
    by_cases h : ∃ sg : Sign, kind = .text sg.name
    · obtain ⟨sg, rfl⟩ := h
      exact .inl ⟨_, .signed sg x s⟩
    · exact .inr ⟨_, .unknownSign (not_exists.mp h) x s⟩
  | call n args s =>
    by_cases h : ∃ f : Function, n = f.name
    · obtain ⟨f, rfl⟩ := h
      exact .inl ⟨_, .call f args s⟩
    · exact .inr ⟨_, .unknownFunction (not_exists.mp h) args s⟩

/-- A release is no reason to reject what is given. -/
theorem RejectedFor.ne_released (h : b.RejectedFor x) : x ≠ .released := by
  cases h <;> simp

end Blueprint

namespace Arena

/-- What can be asked about nodes that were built; they are numbered in the order in which they
were. -/
inductive Query where
  /-- The value of a node. -/
  | evaluate (node : Nat)
  /-- A node as a tree. -/
  | draw (node : Nat)
  /-- A node as text on one line. -/
  | spell (node : Nat)
  /-- Whether two nodes differ at most in their spans. -/
  | compare (node other : Nat)

/-- What can be asked of an arena. -/
inductive Request where
  /-- Build a node. -/
  | build (b : Blueprint)
  /-- Enter the arena. -/
  | enter
  /-- Leave the arena. -/
  | exit
  /-- Release the arena. -/
  | release
  /-- Look at nodes. -/
  | inspect (q : Query)

/-- What a request is answered with. -/
inductive Reply where
  /-- The node that was built. -/
  | made (e : Expr)
  /-- The reason for which no node was built. -/
  | rejected (x : BuildError)
  /-- There is nothing to tell. -/
  | done
  /-- The value of a node, or the fault that was found. -/
  | outcome (r : Except Fault Value)
  /-- A text. -/
  | text (s : String)
  /-- Yes or no. -/
  | verdict (same : Bool)
  /-- A node that is asked about was not built. -/
  | noNode

/-- The node that was built with a reply. -/
def Reply.node? : Reply → Option Expr
  | made e => some e
  | _ => none

/-- An arena and the nodes that were built in it, the first of them first. -/
structure Session where
  /-- The arena. -/
  arena : Arena
  /-- The nodes. -/
  made : List Expr

namespace Session

/-- A new arena. -/
def new : Session := ⟨.empty, []⟩

/-- One node more was built. -/
def built (s : Session) (e : Expr) : Session :=
  ⟨⟨s.arena.size + 1, s.arena.released⟩, s.made ++ [e]⟩

/-- The arena was released; the nodes that were built are still there. -/
def closed (s : Session) : Session := { s with arena := s.arena.release }

end Session

/-- The nodes that a query is about. -/
def Query.nodes : Query → List Nat
  | evaluate i | draw i | spell i => [i]
  | compare i j => [i, j]

/-- The answer to a query about some nodes. -/
def Query.answer (ops : FloatOps) (made : List Expr) : Query → Reply
  | evaluate i => (made[i]?).elim .noNode fun e => .outcome (e.evaluate ops)
  | draw i => (made[i]?).elim .noNode fun e => .text e.tree
  | spell i => (made[i]?).elim .noNode fun e => .text e.shown
  | compare i j => (made[i]?).elim .noNode fun e =>
      (made[j]?).elim .noNode fun f => .verdict (e.same f)

/-- No node is built by looking at some. -/
theorem Query.node?_answer (ops : FloatOps) (made : List Expr) (q : Query) :
    (q.answer ops made).node? = none := by
  cases q with
  | evaluate i | draw i | spell i =>
    rw [answer]
    cases made[i]? <;> rfl
  | compare i j =>
    rw [answer]
    cases made[i]? with
    | none => rfl
    | some e => cases made[j]? <;> rfl

/-- Nodes that are built later do not matter for those that were. -/
theorem Query.answer_append (ops : FloatOps) {made : List Expr} {q : Query}
    (h : ∀ i ∈ q.nodes, i < made.length) (more : List Expr) :
    q.answer ops (made ++ more) = q.answer ops made := by
  cases q with
  | evaluate i | draw i | spell i =>
    rw [answer, answer, List.getElem?_append_left (h i (by simp [nodes]))]
  | compare i j =>
    rw [answer, answer, List.getElem?_append_left (h i (by simp [nodes])),
      List.getElem?_append_left (h j (by simp [nodes]))]

namespace Request

/-- Do what is asked for. -/
def run (ops : FloatOps) (s : Session) : Request → Reply × Session
  | build b =>
    match s.arena.own b.build with
    | (.ok e, a) => (.made e, ⟨a, s.made ++ [e]⟩)
    | (.error x, a) => (.rejected x, ⟨a, s.made⟩)
  | enter => (.done, s)
  | exit | release => (.done, s.closed)
  | inspect q => (q.answer ops s.made, s)

/-- Whether a request closes the arena. -/
def Closes : Request → Prop
  | exit | release => True
  | _ => False

end Request

/-- The replies to requests one after the other. -/
def replies (ops : FloatOps) : List Request → Session → List Reply
  | [], _ => []
  | r :: rs, s => (r.run ops s).1 :: replies ops rs (r.run ops s).2

/-- The nodes that were built with some replies. -/
def nodes (replies : List Reply) : List Expr := replies.filterMap Reply.node?

theorem nodes_cons_made (e : Expr) (rs : List Reply) : nodes (.made e :: rs) = e :: nodes rs := rfl

theorem nodes_cons_of_none {reply : Reply} (h : reply.node? = none) (rs : List Reply) :
    nodes (reply :: rs) = nodes rs := List.filterMap_cons_none h

/-- What requests one after the other leave behind. -/
def after (ops : FloatOps) : List Request → Session → Session
  | [], s => s
  | r :: rs, s => after ops rs (r.run ops s).2

variable {ops : FloatOps} {s : Session} {b : Blueprint} {e : Expr} {x : BuildError}

/-! ### One request -/

/-- A node is built and counted while the arena is open. -/
theorem run_build (hs : s.arena.released = false) (h : b.Describes e) :
    (Request.build b).run ops s = (.made e, s.built e) := by
  simp [Request.run, Blueprint.build_of_describes h, own, hs, Session.built]

/-- No node is built after a release. -/
theorem run_build_of_released (hs : s.arena.released = true) (h : b.Describes e) :
    (Request.build b).run ops s = (.rejected .released, s) := by
  simp [Request.run, Blueprint.build_of_describes h, own, hs]

/-- What is not acceptable is rejected before the arena is asked, and changes nothing. -/
theorem run_build_of_rejectedFor (h : b.RejectedFor x) :
    (Request.build b).run ops s = (.rejected x, s) := by
  simp [Request.run, Blueprint.build_of_rejectedFor h, own_error]

/-- A request counts one node more in an open arena, or closes the arena, or changes nothing. -/
theorem run_cases (ops : FloatOps) (s : Session) (r : Request) :
    (s.arena.released = false ∧ ¬ r.Closes ∧ ∃ e, r.run ops s = (.made e, s.built e)) ∨
    (r.Closes ∧ r.run ops s = (.done, s.closed)) ∨
    ¬ r.Closes ∧ ∃ reply, reply.node? = none ∧ r.run ops s = (reply, s) := by
  cases r with
  | build b =>
    rcases b.describes_or_rejectedFor with ⟨e, h⟩ | ⟨x, h⟩
    · cases hs : s.arena.released with
      | false => exact .inl ⟨rfl, id, e, run_build hs h⟩
      | true => exact .inr (.inr ⟨id, _, rfl, run_build_of_released hs h⟩)
    · exact .inr (.inr ⟨id, _, rfl, run_build_of_rejectedFor h⟩)
  | enter => exact .inr (.inr ⟨id, _, rfl, rfl⟩)
  | exit => exact .inr (.inl ⟨trivial, rfl⟩)
  | release => exact .inr (.inl ⟨trivial, rfl⟩)
  | inspect q => exact .inr (.inr ⟨id, _, q.node?_answer ops s.made, rfl⟩)

/-! ### Any requests one after the other -/

/-- The nodes that are built are those of the replies, in their order. -/
theorem made_after (ops : FloatOps) (requests : List Request) (s : Session) :
    (after ops requests s).made = s.made ++ nodes (replies ops requests s) := by
  induction requests generalizing s with
  | nil => exact (List.append_nil _).symm
  | cons r requests ih =>
    rw [after, replies, ih]
    rcases run_cases ops s r with ⟨-, -, e, hrun⟩ | ⟨-, hrun⟩ | ⟨-, reply, hreply, hrun⟩
    · rw [hrun, nodes_cons_made]
      exact List.append_assoc s.made [e] _
    · rw [hrun, nodes_cons_of_none rfl]
      rfl
    · rw [hrun, nodes_cons_of_none hreply]

/-- Up to the first close the arena counts the nodes that are built. -/
theorem arena_after_of_open {requests : List Request} (h : ∀ r ∈ requests, ¬ r.Closes)
    (s : Session) : (after ops requests s).arena =
      ⟨s.arena.size + (nodes (replies ops requests s)).length, s.arena.released⟩ := by
  induction requests generalizing s with
  | nil => rfl
  | cons r requests ih =>
    obtain ⟨hr, hrequests⟩ := List.forall_mem_cons.mp h
    rw [after, replies, ih hrequests]
    rcases run_cases ops s r with ⟨-, -, e, hrun⟩ | ⟨hcloses, -⟩ | ⟨-, reply, hreply, hrun⟩
    · rw [hrun, nodes_cons_made, List.length_cons]
      simp only [Session.built, Nat.add_assoc, Nat.add_comm 1]
    · exact absurd hcloses hr
    · rw [hrun, nodes_cons_of_none hreply]

/-- Once an arena is closed nothing changes any more. -/
theorem after_closed (ops : FloatOps) (requests : List Request) (s : Session) :
    after ops requests s.closed = s.closed := by
  induction requests with
  | nil => rfl
  | cons r requests ih =>
    rw [after]
    rcases run_cases ops s.closed r with ⟨hopen, -⟩ | ⟨-, hrun⟩ | ⟨-, reply, -, hrun⟩
    · cases hopen
    · rw [hrun]
      exact ih
    · rw [hrun]
      exact ih

/-- From the first close on the arena is empty and stays released. -/
theorem arena_after_of_closes {requests : List Request} (h : ∃ r ∈ requests, r.Closes)
    (s : Session) : (after ops requests s).arena = s.arena.release := by
  induction requests generalizing s with
  | nil => simp at h
  | cons r requests ih =>
    rw [after]
    rcases run_cases ops s r with ⟨-, hr, e, hrun⟩ | ⟨-, hrun⟩ | ⟨hr, reply, -, hrun⟩
    · rw [hrun]
      exact ih (by simpa [hr] using h) _
    · rw [hrun, after_closed]
      rfl
    · rw [hrun]
      exact ih (by simpa [hr] using h) _

/-- After any requests to a new arena: up to the first close it counts the nodes that were built,
and builds what can be built; from the first close on it is empty and released for good, and refuses
what could be built; what cannot be built is rejected for its own reason all the time, and a refusal
changes nothing. What is asked about nodes that were built is answered the same ever after. -/
theorem arena_after_requests (ops : FloatOps) (requests : List Request) :
    let s := after ops requests .new
    ((∀ r ∈ requests, ¬ r.Closes) →
      s.arena.size = (nodes (replies ops requests .new)).length ∧ s.arena.released = false ∧
      ∀ b e, b.Describes e → (Request.build b).run ops s = (.made e, s.built e)) ∧
    ((∃ r ∈ requests, r.Closes) →
      s.arena.size = 0 ∧ s.arena.released = true ∧
      ∀ b e, b.Describes e → (Request.build b).run ops s = (.rejected .released, s)) ∧
    (∀ b x, b.RejectedFor x → x ≠ .released ∧ (Request.build b).run ops s = (.rejected x, s)) ∧
    (∀ b : Blueprint, (∃ e, b.Describes e) ∨ ∃ x, b.RejectedFor x) ∧
    s.made = nodes (replies ops requests .new) ∧
    ∀ (q : Query) (later : List Request), (∀ i ∈ q.nodes, i < s.made.length) →
      ((Request.inspect q).run ops (after ops later s)).1 =
        ((Request.inspect q).run ops s).1 := by
  intro s
  refine ⟨fun hopen => ?_, fun hcloses => ?_,
    fun b x h => ⟨h.ne_released, run_build_of_rejectedFor h⟩, Blueprint.describes_or_rejectedFor,
    made_after ops requests .new, fun q later hq => ?_⟩
  · have harena : s.arena = _ := arena_after_of_open hopen .new
    have hreleased : s.arena.released = false := by rw [harena]; rfl
    refine ⟨?_, hreleased, fun b e h => run_build hreleased h⟩
    rw [harena]
    exact Nat.zero_add _
  · have harena : s.arena = _ := arena_after_of_closes hcloses .new
    have hreleased : s.arena.released = true := by rw [harena]; rfl
    refine ⟨?_, hreleased, fun b e h => run_build_of_released hreleased h⟩
    rw [harena]
    rfl
  · show q.answer ops (after ops later s).made = q.answer ops s.made
    rw [made_after ops later s, Query.answer_append ops hq]

/-- A binary node of a kind that no operator has. -/
private def bogus : Blueprint :=
  .binary (.text "bogus") (.name "x" ⟨0, 1⟩) (.name "y" ⟨4, 5⟩) ⟨2, 3⟩

/-- A number is built, another node is rejected, and the arena is entered. -/
private def beginning : List Request :=
  [.build (.number (.float 1.5) ⟨0, 3⟩), .build bogus, .enter]

/-- An arena that is left with one node in it is empty, is not opened again by entering it, and has
another reason to build nothing than the operator that is not known. -/
theorem arena_after_beginning :
    (after .machine beginning .new).arena.size = 1 ∧
    (after .machine (beginning ++ [.exit, .enter]) .new).arena.size = 0 ∧
    (Request.build (.name "x" ⟨0, 1⟩)).run .machine
        (after .machine (beginning ++ [.exit, .enter]) .new) =
      (.rejected .released, after .machine (beginning ++ [.exit, .enter]) .new) ∧
    (Request.build bogus).run .machine (after .machine (beginning ++ [.exit, .enter]) .new) =
      (.rejected (.unknownOperator (.text "bogus")),
        after .machine (beginning ++ [.exit, .enter]) .new) := by
  have hopen : ∀ r ∈ beginning, ¬ r.Closes := by simp [beginning, Request.Closes]
  have hcloses : ∃ r ∈ beginning ++ [.exit, .enter], r.Closes := ⟨.exit, by simp, trivial⟩
  obtain ⟨hsize, -⟩ := (arena_after_requests .machine beginning).1 hopen
  obtain ⟨-, hclosed, hrejected, -⟩ :=
    arena_after_requests .machine (beginning ++ [.exit, .enter])
  obtain ⟨hempty, -, hreleased⟩ := hclosed hcloses
  have hbogus : bogus.RejectedFor (.unknownOperator (.text "bogus")) :=
    .unknownOperator (fun op => by cases op <;> decide) _ _ _
  exact ⟨hsize, hempty, hreleased _ _ (.name "x" ⟨0, 1⟩), (hrejected _ _ hbogus).2⟩

end Arena

end Reckoner

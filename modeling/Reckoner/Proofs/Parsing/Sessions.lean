import Reckoner.Proofs.Parsing.Acceptance
import Reckoner.Proofs.Parsing.Changes
import Reckoner.Proofs.Scanning.Fronts

/-!
# Parsers that are used again

A parser can be asked for things in any order: to parse a source or a sequence of tokens, to load a
source, to read a part of an expression from wherever the cursor stands, to show a token or to move
on, and to release its arena. Each of these may stop with a fault and leave the cursor and the depth
where they were then. No order of them leads to a negative depth or past the last token, and nothing
that was left behind matters for what is parsed next.
-/

namespace Reckoner.Parser

/-- The parts of an expression that can be asked for. -/
inductive Part where
  /-- A sum. -/
  | sum
  /-- A product. -/
  | product
  /-- A power after any number of signs. -/
  | signed
  /-- A primary with an optional exponent. -/
  | power
  /-- A number, a group, a call or a name. -/
  | primary
  /-- A sum in parentheses. -/
  | group
  /-- A call. -/
  | call

/-- The rule for a part. -/
def Part.rule : Part → Rule
  | sum => .sum
  | product => .product
  | signed => .signed
  | power => .power
  | primary => .primary
  | group => .group
  | call => .call

/-- What a parser can be asked for. -/
inductive Request where
  /-- Scan and parse a source. -/
  | parse (source : String)
  /-- Parse a sequence of tokens. -/
  | parseTokens (tokens : List Token)
  /-- Scan a source and put its tokens under the cursor. -/
  | load (source : String)
  /-- Read a part of an expression from the cursor on. -/
  | read (part : Part)
  /-- Show the token at the cursor. -/
  | current
  /-- Move the cursor on. -/
  | advance
  /-- Show the token at an offset from the cursor. -/
  | peek (offset : Int)
  /-- Release the arena. -/
  | release

namespace Request

/-- Do what is asked for. -/
def run : Request → Parser Unit
  | parse source => discard (parseSource source)
  | parseTokens tokens => discard (Parser.parse tokens)
  | load source => loadSource source
  | read part => discard part.rule.read
  | current => discard Parser.current
  | advance => discard Parser.advance
  | peek offset => discard (Parser.peek offset)
  | release => Parser.release

/-- Whether a request puts tokens under the cursor. -/
def Loads : Request → Prop
  | parse source | load source => ∃ ts, scan source = .ok ts
  | parseTokens tokens => isTerminated tokens = true
  | _ => False

end Request

/-- The state that requests leave behind, whether or not any of them stops. -/
def session (requests : List Request) (s : State) : State :=
  requests.foldl (fun s r => finalState (r.run s)) s

/-! ### What every request preserves -/

/-- What holds of a parser at all times. -/
structure Usable (limit : Int) (s : State) : Prop where
  /-- The limit stays as it was given. -/
  limit_eq : s.limit = limit
  /-- No more levels are closed than were opened. -/
  depth_nonneg : 0 ≤ s.depth
  /-- There are no tokens yet, or the cursor stands on one of them. -/
  cursor : s.tokens = #[] ∧ s.pos = 0 ∨ s.Ready

variable {limit : Int} {s : State}

/-- An orderly end leaves the cursor on a token, and the depth and the limit in order. -/
theorem Orderly.usable {α : Type} {least : Nat} {x : EStateM.Result Stop State α}
    (h : Orderly least s x) (hlimit : s.limit = limit) (hdepth : 0 ≤ s.depth) :
    Usable limit (finalState x) ∧ (finalState x).Ready := by
  cases x with
  | ok a s' =>
    obtain ⟨hready, k, n, -, rfl⟩ := h
    exact ⟨⟨hlimit, hdepth, .inr hready⟩, hready⟩
  | error e s' =>
    obtain ⟨hready, ⟨k, n, d, rfl⟩, -⟩ := h
    refine ⟨⟨hlimit, ?_, .inr hready⟩, hready⟩
    simp only [finalState, State.depth_nested, State.depth_after]
    omega

/-- A result that is not wanted does not change what is left behind. -/
private theorem finalState_discard {α : Type} (p : Parser α) (s : State) :
    finalState ((discard p : Parser Unit) s) = finalState (p s) := by
  show finalState (EStateM.map _ p s) = _
  rw [EStateM.map]
  cases p s <;> rfl

private theorem finalState_current (s : State) : finalState (current s) = s := by
  unfold current
  split <;> rfl

private theorem finalState_peek (offset : Int) (s : State) : finalState (peek offset s) = s := by
  unfold peek
  dsimp only
  split <;> rfl

/-- Without tokens no part is read. -/
private theorem read_unloaded (part : Part) {s : State} (htokens : s.tokens = #[])
    (hpos : s.pos = 0) : part.rule.read s = .error (.noToken false) s := by
  obtain ⟨tokens, pos, depth, limit, arena⟩ := s
  obtain rfl : tokens = #[] := htokens
  obtain rfl : pos = 0 := hpos
  cases part <;> rfl

/-- Without tokens the cursor does not move. -/
private theorem advance_unloaded {s : State} (htokens : s.tokens = #[]) :
    advance s = .error (.noToken false) s := by
  simp [advance, htokens]

/-- Where the cursor stands on a token, a part is read to an orderly end. -/
theorem orderly_read (part : Part) (hs : s.Ready) : Orderly 1 s (part.rule.read s) := by
  cases part with
  | group => exact orderly_group hs
  | call => exact orderly_call hs
  | sum | product => exact Rule.orderly _ hs (.inl rfl) rfl
  | signed | power | primary => exact Rule.orderly _ hs trivial rfl

/-- A sequence that is scanned ends with the end of the input. -/
theorem isTerminated_of_scan {source : String} {ts : List Token} (h : scan source = .ok ts) :
    isTerminated ts = true := by
  obtain ⟨us, e, rfl, he, -⟩ := scanFrom_tokens h
  exact isTerminated_append_singleton us he

/-- A source is scanned before its tokens are parsed. -/
theorem parseSource_of_ok {source : String} {ts : List Token} (h : scan source = .ok ts)
    (s : State) : parseSource source s = parse ts s := by
  rw [parseSource, scanned, h]
  rfl

/-- A source that is not scanned is not parsed. -/
theorem parseSource_of_error {source : String} {f : Fault} (h : scan source = .error f)
    (s : State) : parseSource source s = .error (.fault f) s := by
  rw [parseSource, scanned, h]
  rfl

/-- Parsing a sequence leaves a usable state, and tokens under the cursor if the sequence is
terminated. -/
private theorem usable_parse (h : Usable limit s) (ts : List Token) :
    Usable limit (finalState (parse ts s)) ∧
      (s.Ready ∨ isTerminated ts = true → (finalState (parse ts s)).Ready) := by
  cases hts : isTerminated ts with
  | false =>
    rw [parse_unterminated hts]
    exact ⟨h, fun hready => hready.resolve_right (by simp)⟩
  | true =>
    obtain ⟨husable, hready⟩ := (orderly_parse hts s).usable h.limit_eq (Int.le_refl 0)
    exact ⟨husable, fun _ => hready⟩

/-- Every request leaves a usable state, and once there are tokens, there are tokens. -/
theorem usable_run (h : Usable limit s) (r : Request) :
    Usable limit (finalState (r.run s)) ∧ (s.Ready ∨ r.Loads → (finalState (r.run s)).Ready) := by
  cases r with
  | parse source =>
    rw [Request.run, finalState_discard]
    cases hscan : scan source with
    | error f =>
      rw [parseSource_of_error hscan]
      exact ⟨h, fun hr => hr.resolve_right (by simp [Request.Loads, hscan])⟩
    | ok ts =>
      rw [parseSource_of_ok hscan]
      obtain ⟨husable, hready⟩ := usable_parse h ts
      exact ⟨husable, fun _ => hready (.inr (isTerminated_of_scan hscan))⟩
  | parseTokens ts =>
    rw [Request.run, finalState_discard]
    exact usable_parse h ts
  | load source =>
    cases hscan : scan source with
    | error f =>
      have hload : loadSource source s = .error (.fault f) s := by
        rw [loadSource, scanned, hscan]
        rfl
      rw [Request.run, hload]
      exact ⟨h, fun hr => hr.resolve_right (by simp [Request.Loads, hscan])⟩
    | ok ts =>
      have hload : loadSource source s = .ok () { s with tokens := ts.toArray, pos := 0 } := by
        rw [loadSource, scanned, hscan]
        rfl
      have hready : State.Ready { s with tokens := ts.toArray, pos := 0 } :=
        isTerminated_of_scan hscan
      rw [Request.run, hload]
      exact ⟨⟨h.limit_eq, h.depth_nonneg, .inr hready⟩, fun _ => hready⟩
  | read part =>
    rw [Request.run, finalState_discard]
    rcases h.cursor with ⟨htokens, hpos⟩ | hready
    · rw [read_unloaded part htokens hpos]
      exact ⟨h, fun hr => hr.resolve_right id⟩
    · obtain ⟨husable, hready⟩ := (orderly_read part hready).usable h.limit_eq h.depth_nonneg
      exact ⟨husable, fun _ => hready⟩
  | current =>
    rw [Request.run, finalState_discard, finalState_current]
    exact ⟨h, fun hr => hr.resolve_right id⟩
  | advance =>
    rcases h.cursor with ⟨htokens, hpos⟩ | hready
    · rw [Request.run, finalState_discard, advance_unloaded htokens]
      exact ⟨h, fun hr => hr.resolve_right id⟩
    · obtain ⟨husable, hready⟩ := (Orderly.skip hready).usable h.limit_eq h.depth_nonneg
      exact ⟨husable, fun _ => hready⟩
  | peek offset =>
    rw [Request.run, finalState_discard, finalState_peek]
    exact ⟨h, fun hr => hr.resolve_right id⟩
  | release => exact ⟨⟨h.limit_eq, h.depth_nonneg, h.cursor⟩, fun hr => hr.resolve_right id⟩

/-- Any requests one after the other leave a usable state, and tokens under the cursor if one of
them put tokens there. -/
theorem usable_session (h : Usable limit s) (requests : List Request) :
    Usable limit (session requests s) ∧
      (s.Ready ∨ (∃ r ∈ requests, r.Loads) → (session requests s).Ready) := by
  induction requests generalizing s with
  | nil => exact ⟨h, fun hr => hr.resolve_right (by simp)⟩
  | cons r requests ih =>
    obtain ⟨hrun, hready⟩ := usable_run h r
    obtain ⟨hsession, hsessionReady⟩ := ih hrun
    refine ⟨hsession, fun hr => hsessionReady ?_⟩
    rcases hr with hr | ⟨q, hq, hloads⟩
    · exact .inl (hready (.inl hr))
    · rcases List.mem_cons.mp hq with rfl | hq
      · exact .inl (hready (.inr hloads))
      · exact .inr ⟨q, hq, hloads⟩

/-! ### Nothing that was left behind matters -/

/-- The state with some more nodes counted. -/
def State.counted (s : State) (nodes : Nat) : State :=
  { s with arena := { s.arena with size := nodes + s.arena.size } }

/-- Nodes that were counted before are a change of the state. -/
private theorem change_eq_counted (s : State) (nodes : Nat) :
    s.change ⟨id, 0, nodes⟩ = s.counted nodes := by
  simp [State.change, State.counted, Nat.add_comm]

/-- The end of the parsing of a sequence depends on the limit and on whether the arena was released,
and on nothing else. -/
private theorem parse_eq_counted {ts : List Token} (hts : isTerminated ts = true) (s : State) :
    parse ts s = mapState (·.counted s.arena.size)
      (parse ts (.initial ⟨0, s.arena.released⟩ s.limit)) := by
  have hloaded : s.loaded ts =
      ((State.initial ⟨0, s.arena.released⟩ s.limit).counted s.arena.size).loaded ts := rfl
  rw [parse_eq hts, hloaded, ← parse_eq hts, ← change_eq_counted, parse_change (.inl rfl)]
  simp only [change_eq_counted]

/-- A success leaves the cursor on the end of the input and all levels closed. -/
private theorem parsed_scan {source : String} {ts : List Token} (hscan : scan source = .ok ts)
    {s s' : State} {t : Expr} (h : parse ts s = .ok t s') :
    s'.depth = 0 ∧ s'.pos + 1 = ts.length ∧
      ∃ e, s'.tokens[s'.pos]? = some e ∧ e.lexeme = .eof := by
  obtain ⟨-, e, r, hr, he⟩ := parse_eq_ok (isTerminated_of_scan hscan) h
  have horderly := orderly_parse (isTerminated_of_scan hscan) s
  rw [h] at horderly
  obtain ⟨hready, k, n, -, rfl⟩ := horderly
  refine ⟨rfl, ?_, e, State.getElem?_of_rest hr, he⟩
  obtain ⟨us, o, rfl, -, hus⟩ := scanFrom_tokens hscan
  rw [State.rest_after, State.rest_loaded] at hr
  -- The first end of the input is the last token.
  have hsplit : us ++ [o] = (us ++ [o]).take k ++ e :: r := by rw [← hr, List.take_append_drop]
  have htake := eq_of_append_eof (fun t ht => (hus t ht).1) he hsplit
  have hlength := congrArg List.length htake
  have hdrop := congrArg List.length hr
  simp only [List.length_take, List.length_drop, List.length_append, List.length_cons,
    List.length_nil] at hlength hdrop
  simp only [State.after, State.loaded, List.length_append, List.length_cons, List.length_nil]
  omega

/-- After any requests the depth is not negative and the cursor is on a token once there are any, so
that showing a token and moving on succeed once a source was scanned. A source is then parsed as by
a new parser with the same limit whose arena is released or not just as well: it is refused with
nothing changed, or parsed to the same end up to the nodes that were counted before, and a success
closes all levels and stops at the end of the input. -/
theorem parseSource_session (arena : Arena) (limit : Int) (requests : List Request) :
    let s := session requests (.initial arena limit)
    let new := State.initial ⟨0, s.arena.released⟩ limit
    0 ≤ s.depth ∧ (s.tokens ≠ #[] → s.pos < s.tokens.size) ∧
    ((∃ r ∈ requests, r.Loads) → (∃ t, current s = .ok t s) ∧ ∃ t s', advance s = .ok t s') ∧
    ∀ source,
      (∀ f, scan source = .error f → parseSource source s = .error (.fault f) s ∧
        parseSource source new = .error (.fault f) new) ∧
      ∀ ts, scan source = .ok ts →
        parseSource source s = mapState (·.counted s.arena.size) (parseSource source new) ∧
        ∀ t s', parseSource source s = .ok t s' → s'.depth = 0 ∧ s'.pos + 1 = ts.length ∧
          ∃ e, s'.tokens[s'.pos]? = some e ∧ e.lexeme = .eof := by
  intro s new
  have hinitial : Usable limit (.initial arena limit) := ⟨rfl, Int.le_refl 0, .inl ⟨rfl, rfl⟩⟩
  obtain ⟨husable, hready⟩ : Usable limit s ∧ _ := usable_session hinitial requests
  have hlt (h : s.Ready) : s.pos < s.tokens.size := by
    have hpos := List.length_pos_iff.mpr (isTerminated_ne_nil h)
    rw [State.length_rest] at hpos
    omega
  refine ⟨husable.depth_nonneg, fun h => hlt (husable.cursor.resolve_left fun hc => h hc.1),
    fun hloads => ?_, fun source => ⟨fun f hf => ⟨parseSource_of_error hf s,
      parseSource_of_error hf new⟩, fun ts hts => ⟨?_, fun t s' h => ?_⟩⟩⟩
  · obtain ⟨t, r, hr⟩ := (hready (.inr hloads)).exists_cons
    refine ⟨⟨t, current_eq hr⟩, ?_⟩
    cases r with
    | nil => exact ⟨t, s, advance_last hr⟩
    | cons u v => exact ⟨t, _, advance_eq hr⟩
  · have hnew : new = .initial ⟨0, s.arena.released⟩ s.limit := by rw [husable.limit_eq]
    rw [parseSource_of_ok hts, parseSource_of_ok hts, hnew]
    exact parse_eq_counted (isTerminated_of_scan hts) s
  · rw [parseSource_of_ok hts] at h
    exact parsed_scan hts h

/-- What stopped with two levels open under a limit of one leaves nothing behind that matters for
`(2)`. -/
theorem parseSource_tooDeep :
    let s := session [.load "((", .read .sum] (.initial .empty 1)
    s.depth = 2 ∧ (∃ t, current s = .ok t s) ∧
    parseSource "(2)" s = mapState (·.counted s.arena.size)
      (parseSource "(2)" (.initial ⟨0, s.arena.released⟩ 1)) ∧
    ∃ t s', parseSource "(2)" s = .ok t s' ∧ s'.depth = 0 ∧ s'.pos = 3 := by
  intro s
  have hscan : scan "(2)" = .ok [⟨.lparen, ⟨0, 1⟩⟩, ⟨.number (some (.integer ⟨2, rfl⟩)), ⟨1, 2⟩⟩,
      ⟨.rparen, ⟨2, 3⟩⟩, ⟨.eof, ⟨3, 3⟩⟩] := by decide +kernel
  have hload : scan "((" = .ok [⟨.lparen, ⟨0, 1⟩⟩, ⟨.lparen, ⟨1, 2⟩⟩, ⟨.eof, ⟨2, 2⟩⟩] := by
    decide +kernel
  obtain ⟨-, -, hcurrent, hparse⟩ := parseSource_session .empty 1 [.load "((", .read .sum]
  obtain ⟨heq, hend⟩ := (hparse "(2)").2 _ hscan
  have hreleased : s.arena.released = false := by decide +kernel
  have hnew : parseSource "(2)" (.initial ⟨0, false⟩ 1) = .ok _ _ :=
    (parseSource_of_ok hscan _).trans rfl
  have hok := heq
  rw [hreleased, hnew] at hok
  obtain ⟨hdepth, hpos, -⟩ := hend _ _ hok
  exact ⟨by decide +kernel, (hcurrent ⟨_, List.mem_cons_self, _, hload⟩).1, heq, _, _, hok, hdepth,
    Nat.succ.inj hpos⟩

end Reckoner.Parser

import Reckoner.Proofs.Evaluation.Frames
import Reckoner.Proofs.Parsing.Walk

/-!
# Nesting bounds the visits

The nesting of a derivation counts groups, calls, exponents and signs, and evaluation nests visits
of nodes. Between two of the former at most four visits are nested, one for each level of binding,
so that the nesting limit of a parser bounds the visits in the evaluation of all that it accepts,
however long that is.
-/

namespace Reckoner

/-- The bound that a nesting puts on the visits in the evaluation of an expression of a level. Sums
and products may go on to the right, so that they are bounded as left operands. -/
def FramesWithin (nesting : Nat) (e : Expr) : Level → Prop
  | .sum => e.leftFrames ≤ 4 * nesting + 3
  | .product => e.leftFrames ≤ 4 * nesting + 2
  | .signed | .power => e.frames ≤ 4 * nesting + 1
  | .primary => e.frames ≤ max (4 * nesting) 1
  | .openCall => e.frames ≤ 4 * nesting

/-- What can be derived needs no more visits than its nesting allows. -/
theorem Derives.framesWithin {l : Level} {ts : List Token} {t : Expr} {d : Nat}
    (h : Derives l ts t d) : FramesWithin d t l := by
  induction h with
  | product _ ih => exact Nat.le_succ_of_le ih
  | power _ ih => exact ih
  | number _ | name _ => exact Nat.le_max_right _ _
  | @signed _ t _ _ ih =>
    have hle := t.frames_le_leftFrames
    simp only [FramesWithin] at ih ⊢
    omega
  | primary _ ih | call _ _ ih =>
    simp only [FramesWithin] at ih ⊢
    omega
  | @addSub _ _ _ _ r _ _ _ _ _ _ ihl ihr =>
    -- The right operand may itself be a chain, which then is a visit of its own.
    have hr := r.frames_le_leftFrames
    simp only [FramesWithin, Expr.leftFrames_binary, Expr.frames_binary] at ihl ihr ⊢
    omega
  | mulDiv _ _ _ ihl ihr =>
    simp only [FramesWithin, Expr.leftFrames_binary, Expr.frames_binary] at ihl ihr ⊢
    omega
  | @raise _ b _ _ _ _ _ _ _ _ ihb ihx =>
    have hb := b.frames_le_leftFrames
    simp only [FramesWithin, Expr.frames_binary] at ihb ihx ⊢
    omega
  | sign _ _ ih =>
    simp only [FramesWithin, Expr.frames] at ih ⊢
    omega
  | @group _ t _ _ _ _ _ _ ih =>
    have hle := t.frames_le_leftFrames
    simp only [FramesWithin] at ih ⊢
    omega
  | callEmpty _ _ _ =>
    simp only [FramesWithin, Expr.frames, Expr.framesAll]
    omega
  | @argument _ t _ _ _ _ _ _ _ ih =>
    have hle := t.frames_le_leftFrames
    simp only [FramesWithin, Expr.frames, Expr.framesAll] at ih ⊢
    omega
  | @comma _ _ _ t _ _ _ _ _ _ _ _ ih iht =>
    have hle := t.frames_le_leftFrames
    simp only [FramesWithin, Expr.frames, Expr.framesAll, Expr.framesAll_append] at ih iht ⊢
    omega

namespace Parser

/-- Whatever is parsed can be derived from some tokens with a nesting within the limit. -/
theorem exists_derives_of_parse {ts : List Token} {s s' : State} {t : Expr} (hlimit : 0 ≤ s.limit)
    (h : parse ts s = .ok t s') : ∃ us d, Derives .sum us t d ∧ (d : Int) ≤ s.limit := by
  obtain ⟨us, d, -, hd, hle⟩ := exists_derives_completed h
  rw [Int.max_eq_left hlimit] at hle
  exact ⟨us, d, hd, hle⟩

/-- The limit bounds the visits that are nested in the evaluation of whatever is parsed, and so many
are enough for its evaluation. -/
theorem frames_le_of_parse {ts : List Token} {s s' : State} {t : Expr} (hlimit : 0 ≤ s.limit)
    (h : parse ts s = .ok t s') :
    t.frames ≤ 4 * s.limit + 3 ∧
    ∀ ops, t.evaluateWithin ops (4 * s.limit + 3).toNat = Expr.ended (t.evaluate ops) := by
  obtain ⟨us, d, hd, hle⟩ := exists_derives_of_parse hlimit h
  have hframes := t.frames_le_leftFrames
  have hwithin := hd.framesWithin
  simp only [FramesWithin] at hwithin
  exact ⟨by omega, fun ops => Expr.evaluateWithin_eq ops (by omega)⟩

/-- The name `e` at an offset. -/
private def nameE (n : Int) : Token := ⟨.identifier (some "e"), ⟨n, n + 1⟩⟩

private theorem derives_nameE (n : Int) :
    Derives .signed [nameE n] (.name "e" ⟨n, n + 1⟩) 0 :=
  .power (.primary (.name (t := nameE n) rfl))

/-- The bound is reached: `e+e*abs(e+e*e)^e` is parsed under a limit of one, and its evaluation
nests seven visits. -/
theorem frames_nestedPower : ∃ t s', 0 ≤ (State.initial .empty 1).limit ∧
    parse ([nameE 0, ⟨.plus, ⟨1, 2⟩⟩, nameE 2, ⟨.times, ⟨3, 4⟩⟩, ⟨.identifier (some "abs"), ⟨4, 7⟩⟩,
      ⟨.lparen, ⟨7, 8⟩⟩, nameE 8, ⟨.plus, ⟨9, 10⟩⟩, nameE 10, ⟨.times, ⟨11, 12⟩⟩, nameE 12,
      ⟨.rparen, ⟨13, 14⟩⟩, ⟨.power, ⟨14, 15⟩⟩, nameE 15] ++ [⟨.eof, ⟨16, 16⟩⟩])
      (State.initial .empty 1) = .ok t s' ∧
    t.frames = 7 ∧ t.frames ≤ 4 * (State.initial .empty 1).limit + 3 ∧
    ∀ ops, t.evaluateWithin ops 7 = Expr.ended (t.evaluate ops) := by
  have hinner : Derives .sum _ _ 0 := .addSub (o := ⟨.plus, ⟨9, 10⟩⟩) (.inl ⟨rfl, rfl⟩)
    (.product (.signed (derives_nameE 8)))
    (.mulDiv (o := ⟨.times, ⟨11, 12⟩⟩) (.inl ⟨rfl, rfl⟩) (.signed (derives_nameE 10))
      (derives_nameE 12))
  have hopen : Derives .openCall _ _ 1 := .argument (n := ⟨.identifier (some "abs"), ⟨4, 7⟩⟩)
    (f := .abs) rfl (show (⟨.lparen, ⟨7, 8⟩⟩ : Token).lexeme = .lparen from rfl) hinner
  have hcall : Derives .primary _ _ 1 :=
    .call (show (⟨.rparen, ⟨13, 14⟩⟩ : Token).lexeme = .rparen from rfl) hopen
  have hpower : Derives .power _ _ 1 :=
    .raise (o := ⟨.power, ⟨14, 15⟩⟩) rfl hcall (derives_nameE 15)
  have hsum : Derives .sum _ _ 1 := .addSub (o := ⟨.plus, ⟨1, 2⟩⟩) (.inl ⟨rfl, rfl⟩)
    (.product (.signed (derives_nameE 0)))
    (.mulDiv (o := ⟨.times, ⟨3, 4⟩⟩) (.inl ⟨rfl, rfl⟩) (.signed (derives_nameE 2)) (.power hpower))
  have hlimit : 0 ≤ (State.initial .empty 1).limit := by decide
  have h := parse_of_derives (e := ⟨.eof, ⟨16, 16⟩⟩) rfl (s := .initial .empty 1) rfl hsum
    (Int.le_refl 1)
  obtain ⟨hle, hevaluate⟩ := frames_le_of_parse hlimit h
  exact ⟨_, _, hlimit, h, rfl, hle, hevaluate⟩

end Parser

end Reckoner

import Reckoner.Proofs.Grammar
import Reckoner.Proofs.Scanning.Numerals
import Reckoner.Token.Scan

/-!
# What a scan moves over

What stands at the front of a text takes up at least one of its characters and no more than there
are, so that a scan moves on and stays within the source. The tokens of a source are complete, and
the end of the input follows them.
-/

namespace Reckoner

/-- What stands at a front is a numeral, a name, a sign or a blank. -/
theorem Front.cases_of_ofCons? {c : Char} {cs : List Char} {f : Front}
    (h : Front.ofCons? c cs = some f) :
    (∃ n rest, Numeral.take (c :: cs) = some (n, rest) ∧ f = .numeral n) ∨
    f = .name (c :: cs.takeWhile isNameChar) ∨ (∃ l, signLexeme? c = some l ∧ f = .sign l) ∨
    f = .gap := by
  unfold ofCons? at h
  split at h
  · rename_i n rest hn
    exact .inl ⟨n, rest, hn, (Option.some.inj h).symm⟩
  · split at h
    · exact .inr (.inl (Option.some.inj h).symm)
    · split at h
      · rename_i l hl
        exact .inr (.inr (.inl ⟨l, hl, (Option.some.inj h).symm⟩))
      · split at h
        · exact .inr (.inr (.inr (Option.some.inj h).symm))
        · cases h

/-- A front takes up a character. -/
theorem Front.length_pos {c : Char} {cs : List Char} {f : Front}
    (h : Front.ofCons? c cs = some f) : 0 < f.length := by
  rcases cases_of_ofCons? h with ⟨n, rest, hn, rfl⟩ | rfl | ⟨l, -, rfl⟩ | rfl
  · exact List.length_pos_iff.mpr (Numeral.wellFormed_of_take hn).text_ne_nil
  · exact Nat.succ_pos _
  · exact Nat.one_pos
  · exact Nat.one_pos

/-- A front takes up no more characters than there are. -/
theorem Front.length_le {c : Char} {cs : List Char} {f : Front}
    (h : Front.ofCons? c cs = some f) : f.length ≤ cs.length + 1 := by
  rcases cases_of_ofCons? h with ⟨n, rest, hn, rfl⟩ | rfl | ⟨l, -, rfl⟩ | rfl
  · have hlen := congrArg List.length (Numeral.text_append_of_take hn)
    rw [List.length_append, List.length_cons] at hlen
    simp only [length]
    omega
  · have hlen := (List.takeWhile_prefix (p := isNameChar) (l := cs)).length_le
    simp only [length, List.length_cons]
    omega
  · simp [length]
  · simp [length]

/-- Characters that belong to the token before are passed over. -/
theorem scanFrom_skip {cs : List Char} {k : Nat} (hk : k ≤ cs.length) (pos : Nat) :
    scanFrom cs k pos = scanFrom (cs.drop k) 0 (pos + k) := by
  have h := scanFrom_append (cs.take k) (cs.drop k) pos
  rwa [List.take_append_drop, List.length_take_of_le hk] at h

/-- The lexemes of the signs. -/
def signLexemes : List Lexeme :=
  [.plus, .minus, .times, .divide, .modulo, .power, .lparen, .rparen, .comma]

theorem mem_signLexemes {c : Char} {l : Lexeme} (h : signLexeme? c = some l) :
    l ∈ signLexemes := by
  unfold signLexeme? at h
  split at h <;> simp_all [signLexemes]

/-- The token of a front is complete. -/
theorem Front.isComplete_of_toToken {c : Char} {cs : List Char} {f : Front}
    (hf : Front.ofCons? c cs = some f) {pos : Nat} {t : Token}
    (h : f.toToken pos = .ok (some t)) : t.IsComplete := by
  rcases cases_of_ofCons? hf with ⟨n, rest, -, rfl⟩ | rfl | ⟨l, hl, rfl⟩ | rfl
  · simp only [toToken] at h
    split at h
    · obtain rfl := Option.some.inj (Except.ok.inj h)
      exact ⟨nofun, nofun, nofun⟩
    · cases h
  · obtain rfl := Option.some.inj (Except.ok.inj h)
    exact ⟨nofun, nofun, nofun⟩
  · obtain rfl := Option.some.inj (Except.ok.inj h)
    have hall : ∀ l ∈ signLexemes, l ≠ .eof ∧ l ≠ .number none ∧ l ≠ .identifier none := by
      simp [signLexemes]
    exact hall l (mem_signLexemes hl)
  · cases h

/-- The tokens of a source are complete, and the end of the input follows them. -/
theorem scanFrom_tokens {cs : List Char} {skip pos : Nat} {ts : List Token}
    (h : scanFrom cs skip pos = .ok ts) :
    ∃ us e, ts = us ++ [e] ∧ e.lexeme = .eof ∧ ∀ t ∈ us, t.IsComplete := by
  induction cs generalizing skip pos ts with
  | nil =>
    obtain rfl := Except.ok.inj h
    exact ⟨[], _, rfl, rfl, by simp⟩
  | cons c cs ih =>
    cases skip with
    | succ k => exact ih h
    | zero =>
      rw [scanFrom] at h
      split at h
      · cases h
      · rename_i f hf
        split at h
        · cases h
        · rename_i t ht
          split at h
          · cases h
          · rename_i rs hrs
            obtain rfl := Except.ok.inj h
            obtain ⟨us, e, rfl, he, hus⟩ := ih hrs
            refine ⟨t.toList ++ us, e, by rw [List.append_assoc], he, fun u hu => ?_⟩
            rcases List.mem_append.mp hu with hu | hu
            · rw [Option.mem_toList] at hu
              obtain rfl := hu
              exact Front.isComplete_of_toToken hf ht
            · exact hus u hu

end Reckoner

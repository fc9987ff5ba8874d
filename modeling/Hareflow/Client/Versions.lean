import Mathlib.Data.List.TakeWhile
import Mathlib.Data.Nat.Digits.Defs
import Mathlib.Data.Prod.Lex
import Hareflow.Wire.StringMap

/-!
# The version gate

Brokers that are older than 3.11 close the connection when they receive a command they do not know,
so `start()` exchanges command versions only if the version in the server properties allows it.
`supports_command_versions_exchange` reads the leading triple of numbers of this version with a loop
over `std::from_chars`.

`Accepts` is the grammar that the loop is meant for, `fromChars_eq_ok` says what one round of it
reads, and `supportsCommandVersionsExchange_iff` that the gate accepts exactly this grammar.
-/

namespace Hareflow.Client.Versions

open Wire

/-! ## The loop -/

/-- The digits `0` to `9`. -/
def isDigit (c : UInt8) : Bool := 48 ≤ c && c ≤ 57

def digit (c : UInt8) : ℕ := c.toNat - 48

def dot : UInt8 := 46

/-- The value of a run of digits, from the left. -/
def decimal (run : Bytes) : ℕ := run.foldl (fun n c => 10 * n + digit c) 0

/-- The `std::errc` of `std::from_chars`. -/
inductive Errc
  | invalidArgument
  | resultOutOfRange
  deriving DecidableEq, Repr

/-- `std::from_chars` for an `unsigned int`: the value of the digits at the front and what is left. A
sign or a blank is not part of a number. -/
def fromChars (chars : Bytes) : Except Errc (UInt32 × Bytes) :=
  let run := chars.takeWhile isDigit
  if run = [] then .error .invalidArgument
  else if 2 ^ 32 ≤ decimal run then .error .resultOutOfRange
  else .ok (UInt32.ofNat (decimal run), chars.dropWhile isDigit)

/-- `remaining.front() == '.'`, and the rest. -/
def skipDot : Bytes → Option Bytes
  | [] => none
  | c :: rest => if c ≠ dot then none else some rest

/-- The loop from part `i` on, with `n` parts to go. -/
def parseParts : ℕ → ℕ → Bytes → Option (List UInt32)
  | _, 0, _ => some []
  | i, n + 1, remaining =>
    (if 0 < i then skipDot remaining else some remaining).bind fun remaining =>
      match fromChars remaining with
      | .error _ => none
      | .ok (v, remaining) => (parseParts (i + 1) n remaining).map (v :: ·)

/-- The key `version`. -/
def versionKey : Bytes := "version".toList.map fun c => UInt8.ofNat c.toNat

/-- `supports_command_versions_exchange`; the arrays are compared lexicographically. -/
def supportsCommandVersionsExchange (serverProperties : StringMap) : Bool :=
  match serverProperties.find versionKey with
  | none => false
  | some value =>
    match parseParts 0 3 value with
    | none => false
    | some version => decide ([3, 11, 0] ≤ version)

/-! ## The grammar -/

/-- A run of digits that does not go on in what follows. -/
structure IsRun (run rest : Bytes) : Prop where
  nonempty : run ≠ []
  digits : ∀ c ∈ run, isDigit c
  maximal : ∀ c ∈ rest.head?, ¬isDigit c

/-- The number that a run of digits denotes in base ten. -/
def denotes (run : Bytes) : ℕ := Nat.ofDigits 10 (run.map digit).reverse

/-- A version that begins with three runs of digits, with single dots between them, which denote
numbers below `2 ^ 32`, and which is at least 3.11.0. -/
def Accepts (version : Bytes) : Prop :=
  ∃ major minor patch rest : Bytes,
    version = major ++ dot :: (minor ++ dot :: (patch ++ rest)) ∧
    IsRun major (dot :: (minor ++ dot :: (patch ++ rest))) ∧
    IsRun minor (dot :: (patch ++ rest)) ∧
    IsRun patch rest ∧
    denotes major < 2 ^ 32 ∧ denotes minor < 2 ^ 32 ∧ denotes patch < 2 ^ 32 ∧
    toLex (3, toLex (11, 0)) ≤ toLex (denotes major, toLex (denotes minor, denotes patch))

theorem decimal_eq_denotes (run : Bytes) : decimal run = denotes run := by
  rw [denotes, Nat.ofDigits_eq_foldr, List.foldr_reverse, List.foldl_map, decimal]
  congr 1
  funext n c
  exact Nat.add_comm _ _

/-- The digits at the front are a run. -/
theorem isRun_takeWhile {chars : Bytes} (h : chars.takeWhile isDigit ≠ []) :
    IsRun (chars.takeWhile isDigit) (chars.dropWhile isDigit) where
  nonempty := h
  digits _ hc := List.mem_takeWhile_imp hc
  maximal c hc := by
    have hhead := List.head?_dropWhile_not isDigit chars
    rw [Option.mem_def.1 hc] at hhead
    simpa using hhead

/-- A run is what the front of the characters is cut into. -/
theorem IsRun.takeWhile_eq {run rest : Bytes} (h : IsRun run rest) :
    (run ++ rest).takeWhile isDigit = run ∧ (run ++ rest).dropWhile isDigit = rest := by
  have hrest : rest.takeWhile isDigit = [] ∧ rest.dropWhile isDigit = rest := by
    cases rest with
    | nil => exact ⟨rfl, rfl⟩
    | cons c rest =>
      have hc := h.maximal c rfl
      exact ⟨List.takeWhile_cons_of_neg hc, List.dropWhile_cons_of_neg hc⟩
  rw [List.takeWhile_append_of_pos h.digits, List.dropWhile_append_of_pos h.digits, hrest.1,
    List.append_nil]
  exact ⟨rfl, hrest.2⟩

/-- What one round of the loop reads. -/
theorem fromChars_eq_ok {chars rest : Bytes} {v : UInt32} :
    fromChars chars = .ok (v, rest) ↔
      ∃ run, IsRun run rest ∧ chars = run ++ rest ∧ denotes run < 2 ^ 32 ∧
        v = UInt32.ofNat (denotes run) := by
  constructor
  · intro h
    simp only [fromChars] at h
    split at h
    · cases h
    · rename_i hne
      split at h
      · cases h
      · rename_i hlt
        cases h
        rw [decimal_eq_denotes] at hlt ⊢
        exact ⟨_, isRun_takeWhile hne, List.takeWhile_append_dropWhile.symm, Nat.not_le.1 hlt, rfl⟩
  · rintro ⟨run, hrun, rfl, hlt, rfl⟩
    obtain ⟨htake, hdrop⟩ := hrun.takeWhile_eq
    rw [← decimal_eq_denotes] at hlt ⊢
    simp only [fromChars, htake, hdrop]
    rw [if_neg hrun.nonempty, if_neg (Nat.not_le.2 hlt)]

theorem skipDot_eq_some {chars rest : Bytes} : skipDot chars = some rest ↔ chars = dot :: rest := by
  cases chars with
  | nil => exact ⟨nofun, nofun⟩
  | cons c chars =>
    rw [skipDot]
    split
    · rename_i hne
      exact ⟨nofun, fun h => absurd (List.cons.inj h).1 hne⟩
    · rename_i heq
      rw [not_not.1 heq, Option.some.injEq, List.cons.injEq]
      exact ⟨fun h => ⟨rfl, h⟩, fun h => h.2⟩

/-- The characters before a part. -/
def separator (i : ℕ) : Bytes := if 0 < i then [dot] else []

/-- One round of the loop and the rounds after it. -/
theorem parseParts_succ {i n : ℕ} {chars : Bytes} {version : List UInt32} :
    parseParts i (n + 1) chars = some version ↔
      ∃ run rest parts, chars = separator i ++ (run ++ rest) ∧ IsRun run rest ∧
        denotes run < 2 ^ 32 ∧ parseParts (i + 1) n rest = some parts ∧
        version = UInt32.ofNat (denotes run) :: parts := by
  have hskip {tail : Bytes} : (if 0 < i then skipDot chars else some chars) = some tail ↔
      chars = separator i ++ tail := by
    rw [separator]
    split
    · exact skipDot_eq_some
    · exact Option.some_inj
  rw [parseParts, Option.bind_eq_some_iff]
  constructor
  · rintro ⟨tail, htail, h⟩
    cases hround : fromChars tail with
    | error e =>
      rw [hround] at h
      cases h
    | ok r =>
      obtain ⟨v, rest⟩ := r
      rw [hround] at h
      obtain ⟨parts, hparts, rfl⟩ := Option.map_eq_some_iff.1 h
      obtain ⟨run, hrun, rfl, hlt, rfl⟩ := fromChars_eq_ok.1 hround
      exact ⟨run, rest, parts, hskip.1 htail, hrun, hlt, hparts, rfl⟩
  · rintro ⟨run, rest, parts, hchars, hrun, hlt, hparts, rfl⟩
    refine ⟨run ++ rest, hskip.2 hchars, ?_⟩
    have hround : fromChars (run ++ rest) = .ok (UInt32.ofNat (denotes run), rest) :=
      fromChars_eq_ok.2 ⟨run, hrun, rfl, hlt, rfl⟩
    rw [hround]
    exact Option.map_eq_some_iff.2 ⟨parts, hparts, rfl⟩

/-- The comparison of the arrays is that of the triples of numbers. -/
theorem least_le_iff {a b c : ℕ} (ha : a < 2 ^ 32) (hb : b < 2 ^ 32) :
    ([3, 11, 0] : List UInt32) ≤ [UInt32.ofNat a, UInt32.ofNat b, UInt32.ofNat c] ↔
      toLex (3, toLex (11, 0)) ≤ toLex (a, toLex (b, c)) := by
  have hlt {n k : ℕ} (hn : n < 2 ^ 32) (hk : k < 2 ^ 32) :
      UInt32.ofNat n < UInt32.ofNat k ↔ n < k := by
    rw [UInt32.lt_iff_toNat_lt, UInt32.toNat_ofNat_of_lt' hn, UInt32.toNat_ofNat_of_lt' hk]
  have heq {n k : ℕ} (hn : n < 2 ^ 32) (hk : k < 2 ^ 32) :
      UInt32.ofNat n = UInt32.ofNat k ↔ n = k := by
    rw [← UInt32.toNat_inj, UInt32.toNat_ofNat_of_lt' hn, UInt32.toNat_ofNat_of_lt' hk]
  have harray : [UInt32.ofNat a, UInt32.ofNat b, UInt32.ofNat c] < [3, 11, 0] ↔
      a < 3 ∨ a = 3 ∧ b < 11 := by
    have ha₃ : UInt32.ofNat a < 3 ↔ a < 3 := hlt ha (by decide)
    have ha₃' : UInt32.ofNat a = 3 ↔ a = 3 := heq ha (by decide)
    have hb₁₁ : UInt32.ofNat b < 11 ↔ b < 11 := hlt hb (by decide)
    simp [List.cons_lt_cons_iff, ha₃, ha₃', hb₁₁]
  rw [← List.not_lt, harray, Prod.Lex.toLex_le_toLex, Prod.Lex.toLex_le_toLex]
  simp only
  omega

/-- The three rounds of the loop. -/
theorem parseParts_three {value : Bytes} {version : List UInt32} :
    parseParts 0 3 value = some version ↔
      ∃ major minor patch rest, value = major ++ dot :: (minor ++ dot :: (patch ++ rest)) ∧
        IsRun major (dot :: (minor ++ dot :: (patch ++ rest))) ∧
        IsRun minor (dot :: (patch ++ rest)) ∧ IsRun patch rest ∧
        denotes major < 2 ^ 32 ∧ denotes minor < 2 ^ 32 ∧ denotes patch < 2 ^ 32 ∧
        version = [UInt32.ofNat (denotes major), UInt32.ofNat (denotes minor),
          UInt32.ofNat (denotes patch)] := by
  constructor
  · intro h
    obtain ⟨major, _, _, rfl, hmajor, ha, hparts₁, rfl⟩ := parseParts_succ.1 h
    obtain ⟨minor, _, _, rfl, hminor, hb, hparts₂, rfl⟩ := parseParts_succ.1 hparts₁
    obtain ⟨patch, rest, _, rfl, hpatch, hc, hparts₃, rfl⟩ := parseParts_succ.1 hparts₂
    obtain rfl := Option.some.inj hparts₃
    exact ⟨major, minor, patch, rest, rfl, hmajor, hminor, hpatch, ha, hb, hc, rfl⟩
  · rintro ⟨major, minor, patch, rest, rfl, hmajor, hminor, hpatch, ha, hb, hc, rfl⟩
    have hparts₂ := (parseParts_succ (i := 2) (n := 0)).2 ⟨patch, rest, [], rfl, hpatch, hc, rfl, rfl⟩
    have hparts₁ := (parseParts_succ (i := 1)).2 ⟨minor, _, _, rfl, hminor, hb, hparts₂, rfl⟩
    exact parseParts_succ.2 ⟨major, _, _, rfl, hmajor, ha, hparts₁, rfl⟩

/-- **The version gate accepts exactly its grammar**: the server properties have a key `version`, the
value of which begins with three maximal runs of digits with single dots between them, and the
numbers are below `2 ^ 32` and at least 3, 11, 0. What follows does not matter. -/
theorem supportsCommandVersionsExchange_iff (serverProperties : StringMap) :
    supportsCommandVersionsExchange serverProperties = true ↔
      ∃ value, (versionKey, value) ∈ serverProperties.entries ∧ Accepts value := by
  rw [supportsCommandVersionsExchange]
  cases hfind : serverProperties.find versionKey with
  | none =>
    refine ⟨nofun, fun ⟨value, hmem, _⟩ => ?_⟩
    rw [← StringMap.find_eq_some, hfind] at hmem
    cases hmem
  | some value =>
    constructor
    · intro h
      refine ⟨value, StringMap.find_eq_some.1 hfind, ?_⟩
      cases hversion : parseParts 0 3 value with
      | none => simp [hversion] at h
      | some version =>
        obtain ⟨major, minor, patch, rest, rfl, hmajor, hminor, hpatch, ha, hb, hc, rfl⟩ :=
          parseParts_three.1 hversion
        have hle := (least_le_iff ha hb).1 (by simpa [hversion] using h)
        exact ⟨major, minor, patch, rest, rfl, hmajor, hminor, hpatch, ha, hb, hc, hle⟩
    · rintro ⟨value', hmem, major, minor, patch, rest, hvalue, hmajor, hminor, hpatch, ha, hb, hc, hle⟩
      rw [← StringMap.find_eq_some, hfind] at hmem
      obtain rfl := Option.some.inj hmem
      have hversion := parseParts_three.2
        ⟨major, minor, patch, rest, hvalue, hmajor, hminor, hpatch, ha, hb, hc, rfl⟩
      simpa [hversion] using (least_le_iff ha hb).2 hle

-- 3.11.0-rc and 3.9.28
example : supportsCommandVersionsExchange
    ⟨[(versionKey, [51, 46, 49, 49, 46, 48, 45, 114, 99])], List.pairwise_singleton _ _⟩ = true := by
  decide

example : supportsCommandVersionsExchange
    ⟨[(versionKey, [51, 46, 57, 46, 50, 56])], List.pairwise_singleton _ _⟩ = false := by
  decide

end Hareflow.Client.Versions

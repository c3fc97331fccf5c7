import NodeWatch.Net.Endpoint
import NodeWatch.Proofs.Net.Address.Reading
import NodeWatch.Proofs.Text.Split

/-!
Endpoints that are named by a literal address.

What such a text names is settled by its host and its port, whichever way it is read: the written
endpoint, or the parts before and behind the last colon. A printed endpoint names itself, so that
different endpoints are printed differently.
-/

namespace NodeWatch.Text

variable {max n : Nat} {s t u : List Char} {sep c : Char}

/-! ### Numbers of any length -/

/-- Letters are no digits of a number in base ten. -/
lemma digitValue?_ten_of_not_digit (h : ¬ ('0' ≤ c ∧ c ≤ '9')) : digitValue? 10 c = none := by
  have hsmall : 'a' ≤ c → ¬ c.toNat - 87 < 10 := by
    intro ha
    have hle : 'a'.toNat ≤ c.toNat := ha
    have hnum : 'a'.toNat = 97 := rfl
    omega
  have hcapital : 'A' ≤ c → ¬ c.toNat - 55 < 10 := by
    intro hA
    have hle : 'A'.toNat ≤ c.toNat := hA
    have hnum : 'A'.toNat = 65 := rfl
    omega
  unfold digitValue? hexValue?
  rw [if_neg h]
  split
  next ha => simpa using hsmall ha.1
  next =>
    split
    next hA => simpa using hcapital hA.1
    next => rfl

lemma isSome_digitValue?_ten (c : Char) : (digitValue? 10 c).isSome = isDigit c := by
  by_cases h : '0' ≤ c ∧ c ≤ '9'
  · have hle : c.toNat ≤ '9'.toNat := h.2
    have hnum : '9'.toNat = 57 := rfl
    have hlow : c.toNat - 48 < 10 := by omega
    simp [digitValue?, hexValue?, isDigit, h, hlow]
  · rw [digitValue?_ten_of_not_digit h]
    simpa [isDigit] using h

/-- Digits to the end, as a number up to a bound. -/
def bounded? (max : Nat) (s : List Char) : Option Nat := (decimal? s).filter (· ≤ max)

lemma bounded?_decimal (h : n ≤ max) : bounded? max (decimal n) = some n := by
  have hall : (decimal n).all isDigit = true :=
    List.all_eq_true.mpr fun c hc => isDigit_of_mem_decimal hc
  have hvalue : decimalValue (decimal n) = n := valueFrom_digits (by omega) (by omega) n
  rw [bounded?, decimal?, if_pos ⟨digits_ne_nil, hall⟩, hvalue]
  simp [h]

/-- Digits alone are read alike where a plus sign may precede them. -/
lemma unsigned?_of_bounded? (h : bounded? max s = some n) : unsigned? max s = some n := by
  have hplus : ∀ r, s ≠ '+' :: r := by
    rintro r rfl
    simp [bounded?, decimal?, isDigit] at h
  unfold unsigned?
  split
  next r => exact absurd rfl (hplus r)
  next => exact h

lemma cutLast_append (h : sep ∉ t) : cutLast sep (s ++ sep :: t) = some (s, t) := by
  have hsplit : split sep (s ++ sep :: t) = split sep s ++ [t] := by
    rw [split_append, split_of_notMem h]
  obtain ⟨w, ws, hs⟩ := List.exists_cons_of_ne_nil (split_ne_nil sep s)
  have hjoin : join [sep] (w :: ws) = s := by rw [← hs, join_split]
  rw [hs] at hsplit
  unfold cutLast
  rw [hsplit]
  cases ws with
  | nil =>
    rw [← hjoin]
    rfl
  | cons v ws =>
    change some (join [sep] ((w :: v :: ws) ++ [t]).dropLast, ((w :: v :: ws) ++ [t]).getLastD []) =
      some (s, t)
    rw [List.dropLast_concat, hjoin, List.getLastD_concat]

end NodeWatch.Text

namespace NodeWatch.Net.Endpoint

open Text Address

/-- A host that is a literal address: octets, or groups in brackets with or without a scope. -/
inductive Literal : List Char → Address → UInt32 → Prop where
  | octets {host : List Char} {a : Address} (read : Address.ofV4Text? host = some a) :
    Literal host a 0
  | groups {gs : List Char} {a : Address} (read : Address.ofV6Text? gs = some a) :
    Literal ('[' :: gs ++ [']']) a 0
  | zoned {gs ds : List Char} {a : Address} {n : Nat} (read : Address.ofV6Text? gs = some a)
    (zone : bounded? u32Max ds = some n) : Literal ('[' :: gs ++ '%' :: ds ++ [']']) a (.ofNat n)

variable {max n : Nat} {s u host p : List Char} {a : Address} {scope : UInt32} {e : Endpoint}

lemma readNumber_eq {width : Nat} (h : s.length ≤ width) :
    readNumber 10 width s = readNumber 10 s.length s := by
  have hle : (s.takeWhile fun c => (digitValue? 10 c).isSome).length ≤ s.length :=
    (List.takeWhile_prefix _).length_le
  simp only [readNumber]
  have h₁ : ¬ width < (s.takeWhile fun c => (digitValue? 10 c).isSome).length := by omega
  have h₂ : ¬ s.length < (s.takeWhile fun c => (digitValue? 10 c).isSome).length := by omega
  simp only [h₁, h₂]

lemma readBounded_append (hu : ∀ c ∈ u.head?, digitValue? 10 c = none) :
    readBounded max (s ++ u) = (readBounded max s).map (behind u) := by
  have hle : s.length ≤ (s ++ u).length := by simp
  rw [readBounded, readNumber_append hu, readNumber_eq hle, readBounded, Option.filter_map]
  rfl

/-- A number that is read to the end of the text. -/
lemma readBounded_whole {α : Type} (f : Nat → α) (max : Nat) (s : List Char) :
    ((readBounded max s).bind fun nr => if nr.2 = [] then some (f nr.1) else none) =
      (bounded? max s).map f := by
  simp only [readBounded, readNumber, bounded?, decimal?, decimalValue, isSome_digitValue?_ten]
  have hlen : ¬ s.length < (s.takeWhile isDigit).length :=
    Nat.not_lt.mpr (List.takeWhile_prefix _).length_le
  by_cases hall : s.all isDigit = true
  · have htake : s.takeWhile isDigit = s :=
      List.takeWhile_eq_self_iff.mpr (List.all_eq_true.mp hall)
    by_cases hs : s = []
    · simp [hs]
    · simp only [htake, hs, hall, lt_irrefl, or_self, if_false, ne_eq, not_false_eq_true, and_self,
        if_true, List.drop_length]
      by_cases hmax : valueFrom 10 0 s ≤ max
      · rw [Option.filter_some_pos (by simpa using hmax),
          Option.filter_some_pos (by simpa using hmax)]
        rfl
      · rw [Option.filter_some_neg (by simpa using hmax),
          Option.filter_some_neg (by simpa using hmax)]
        rfl
  · have hrest : s.drop (s.takeWhile isDigit).length ≠ [] := by
      intro hnil
      have hle := List.drop_eq_nil_iff.mp hnil
      have heq := (List.takeWhile_prefix isDigit).eq_of_length_le hle
      rw [← heq] at hall
      exact hall List.all_takeWhile
    by_cases hs : s.takeWhile isDigit = []
    · simp [hs, hall]
    · simp only [hs, hlen, or_self, if_false, hall, Bool.false_eq_true, and_false]
      by_cases hmax : valueFrom 10 0 (s.takeWhile isDigit) ≤ max <;> simp [hmax, hrest]

/-! ### Hosts and ports -/

/-- The port that a text writes. Behind octets it may begin with a plus sign. -/
def portOf? (a : Address) (p : List Char) : Option Nat :=
  if a.isV4 then unsigned? u16Max p else bounded? u16Max p

lemma portOf?_of_bounded? (h : bounded? u16Max p = some n) : portOf? a p = some n := by
  unfold portOf?
  split
  · exact unsigned?_of_bounded? h
  · exact h

lemma readV4_bracket (s : List Char) : readV4 ('[' :: s) = none := rfl

lemma ne_bracket_of_octets (h : Address.ofV4Text? s = some a) (t : List Char) : s ≠ '[' :: t := by
  rintro rfl
  obtain ⟨_, _, _, _, -, hread⟩ := readV4_of_ofV4Text? h
  rw [readV4_bracket] at hread
  cases hread

lemma ofText?_octets (h : Address.ofV4Text? host = some a) :
    Endpoint.ofText? (host ++ ':' :: p) =
      (bounded? u16Max p).map fun m => { address := a, port := .ofNat m } := by
  obtain ⟨b, c, d, e, rfl, hread⟩ := readV4_of_ofV4Text? h
  have hv4 : readV4 (host ++ ':' :: p) = some ((b, c, d, e), ':' :: p) := by
    rw [readV4_append (by simp; decide) (by simp), hread]
    rfl
  have hv6 : Endpoint.ofV6Text? (host ++ ':' :: p) = none := by
    obtain ⟨x, r, rfl⟩ := List.exists_cons_of_ne_nil (l := host) (by rintro rfl; cases hread)
    have hx : x ≠ '[' := fun hx => ne_bracket_of_octets h r (by rw [hx])
    simp [Endpoint.ofV6Text?, readChar, hx]
  rw [Endpoint.ofText?, hv6, Endpoint.ofV4Text?, hv4]
  simp only [Option.bind_eq_bind, Option.bind_some, readChar, if_true]
  rw [readBounded_whole fun m => (⟨.v4 b c d e, .ofNat m, 0⟩ : Endpoint)]
  simp

/-- The scope stands between the groups and the bracket. -/
lemma ofV6Text?_scoped {groups middle : List Char} (h : Address.ofV6Text? groups = some a)
    (hclose : Closes (middle ++ ']' :: ':' :: p))
    (hscope : readScope (middle ++ ']' :: ':' :: p) = (n, ']' :: ':' :: p)) :
    Endpoint.ofV6Text? (('[' :: groups ++ middle ++ [']']) ++ ':' :: p) =
      (bounded? u16Max p).map fun m => ⟨a, .ofNat m, .ofNat n⟩ := by
  have hread : readV6 (groups ++ (middle ++ ']' :: ':' :: p)) =
      some (a, middle ++ ']' :: ':' :: p) := by
    rw [readV6_append hclose, readV6_of_ofV6Text? h]
    rfl
  have htext : ('[' :: groups ++ middle ++ [']']) ++ ':' :: p =
      '[' :: (groups ++ (middle ++ ']' :: ':' :: p)) := by simp
  rw [htext, Endpoint.ofV6Text?]
  simp only [Option.bind_eq_bind, Option.bind_some, readChar, if_true, hread, hscope]
  exact readBounded_whole (fun m => (⟨a, .ofNat m, .ofNat n⟩ : Endpoint)) _ _

lemma digitValue?_bracket : digitValue? 16 ']' = none := by decide

/-- A host in brackets is read as a whole, whatever stands behind it. -/
lemma Literal.ofText? (h : Literal host a scope) :
    Endpoint.ofText? (host ++ ':' :: p) =
      (bounded? u16Max p).map fun m => ⟨a, .ofNat m, scope⟩ := by
  cases h with
  | octets read => exact ofText?_octets read
  | groups read =>
    have hclose : Closes ([] ++ ']' :: ':' :: p) := by simp [Closes, digitValue?_bracket]
    have hread := ofV6Text?_scoped (n := 0) read hclose rfl
    rw [List.append_nil] at hread
    rw [Endpoint.ofText?, hread]
    rfl
  | @zoned gs ds a n read hscope =>
    have hclose : Closes ('%' :: ds ++ ']' :: ':' :: p) := by
      have hpercent : digitValue? 16 '%' = none := by decide
      simp [Closes, hpercent]
    have hnumber : readBounded u32Max (ds ++ ']' :: ':' :: p) = some (n, ']' :: ':' :: p) := by
      have hbracket : ∀ c ∈ (']' :: ':' :: p).head?, digitValue? 10 c = none := by
        simp; decide
      have hwhole := readBounded_whole id u32Max ds
      rw [hscope, Option.map_some, Option.bind_eq_some_iff] at hwhole
      obtain ⟨⟨m, r⟩, hm, hmr⟩ := hwhole
      obtain ⟨rfl, hn⟩ := Option.ite_none_right_eq_some.mp hmr
      rw [readBounded_append hbracket, hm]
      exact congrArg (fun k => some (k, ']' :: ':' :: p)) (Option.some.inj hn)
    have hmiddle : readScope ('%' :: ds ++ ']' :: ':' :: p) = (n, ']' :: ':' :: p) := by
      simp only [readScope, List.cons_append, readChar, if_true, Option.bind_some, hnumber,
        Option.getD_some]
    have hread := ofV6Text?_scoped read hclose hmiddle
    rw [Endpoint.ofText?, hread]
    rfl

lemma Literal.ne_nil (h : Literal host a scope) : host ≠ [] := by
  cases h with
  | octets read =>
    rintro rfl
    cases read
  | groups read => simp
  | zoned read hscope => simp

/-- A machine knows no host whose name begins with a bracket. -/
def KnowsNoBrackets (resolve : Resolver) : Prop :=
  ∀ host addresses, resolve ('[' :: host) ≠ .ok addresses

lemma knowsNoBrackets_empty : KnowsNoBrackets .empty := by simp [KnowsNoBrackets, Resolver.empty]

/-- A literal address is one of the first family, or no host that a machine knows. -/
lemma Literal.resolved (h : Literal host a scope) :
    (a.isV4 = true ∧ Address.ofV4Text? host = some a ∧ scope = 0) ∨
      (a.isV4 = false ∧ Address.ofV4Text? host = none ∧ Address.ofV6Text? host = none ∧
        ∃ rest, host = '[' :: rest) := by
  have hbracket : ∀ t, Address.ofV4Text? ('[' :: t) = none ∧ Address.ofV6Text? ('[' :: t) = none :=
    fun t => ⟨rfl, rfl⟩
  cases h with
  | octets read =>
    obtain ⟨b, c, d, e, rfl, -⟩ := readV4_of_ofV4Text? read
    exact .inl ⟨rfl, read, rfl⟩
  | groups read =>
    exact .inr ⟨isV4_of_readV6 (readV6_of_ofV6Text? read), (hbracket _).1, (hbracket _).2, _, rfl⟩
  | zoned read hscope =>
    exact .inr ⟨isV4_of_readV6 (readV6_of_ofV6Text? read), (hbracket _).1, (hbracket _).2, _, rfl⟩

/-- What begins with a bracket and is no endpoint names none. -/
lemma resolved_ne_ok {resolve : Resolver} (hresolve : KnowsNoBrackets resolve) {rest : List Char}
    {port : UInt16} : resolved resolve ('[' :: rest) port ≠ .ok e := by
  unfold Endpoint.resolved
  split
  · simp
  · cases hknown : resolve ('[' :: rest) with
    | error reason => simp
    | ok addresses => exact absurd hknown (hresolve _ _)

/-- **What a host and a port name.** -/
lemma named_eq_ok_iff {resolve : Resolver} (hresolve : KnowsNoBrackets resolve)
    (h : Literal host a scope) (hp : ':' ∉ p) : named (host ++ ':' :: p) resolve = .ok e ↔
      ∃ m, portOf? a p = some m ∧ e = ⟨a, .ofNat m, scope⟩ := by
  have hcut := cutLast_append (s := host) hp
  obtain ⟨x, r, hhost⟩ := List.exists_cons_of_ne_nil h.ne_nil
  unfold named
  rw [h.ofText?]
  cases hwhole : bounded? u16Max p with
  | some m => simp [portOf?_of_bounded? hwhole, eq_comm]
  | none =>
    rw [hcut, hhost]
    simp only [Option.map_none]
    rw [← hhost]
    rcases h.resolved with ⟨hv4, hread, rfl⟩ | ⟨hv6, hread, hread', rest, hrest⟩
    · rw [portOf?, if_pos hv4]
      cases unsigned? u16Max p <;> simp [hread, eq_comm]
    · have hnone : ∀ port, resolved resolve host port ≠ .ok e :=
        fun port => hrest ▸ resolved_ne_ok hresolve
      rw [portOf?, hv6, hwhole]
      cases unsigned? u16Max p <;> simp [hread, hread', hnone]

/-! ### Printed endpoints -/

/-- Only the second family has scopes. -/
def Regular (e : Endpoint) : Prop := e.address.isV4 = true → e.scope = 0

lemma regular_of_ofText? (h : Endpoint.ofText? s = some e) : Regular e := by
  intro hv4
  unfold Endpoint.ofText? at h
  cases hfirst : Endpoint.ofV4Text? s with
  | some f =>
    obtain rfl : f = e := by simpa [hfirst] using h
    simp only [Endpoint.ofV4Text?, Option.bind_eq_bind, Option.bind_eq_some_iff] at hfirst
    obtain ⟨_, _, _, _, _, _, hf⟩ := hfirst
    obtain ⟨-, hf⟩ := Option.ite_none_right_eq_some.mp hf
    rw [← Option.some.inj hf]
  | none =>
    have hsecond : Endpoint.ofV6Text? s = some e := by simpa [hfirst] using h
    simp only [Endpoint.ofV6Text?, Option.bind_eq_bind, Option.bind_eq_some_iff] at hsecond
    obtain ⟨_, _, x, hx, _, _, _, _, _, _, he⟩ := hsecond
    obtain ⟨-, he⟩ := Option.ite_none_right_eq_some.mp he
    have hx' := isV4_of_readV6 (a := x.1) (r := x.2) hx
    rw [← Option.some.inj he] at hv4
    rw [hv4] at hx'
    cases hx'

lemma regular_of_resolved {resolve : Resolver} {port : UInt16}
    (h : resolved resolve s port = .ok e) : Regular e := by
  unfold Endpoint.resolved at h
  split at h
  · cases h
  · split at h
    · cases h
    · split at h
      · obtain rfl := Except.ok.inj h
        exact fun _ => rfl
      · cases h

lemma regular_of_named {resolve : Resolver} (h : named s resolve = .ok e) : Regular e := by
  unfold named at h
  split at h
  next f hf =>
    obtain rfl := Except.ok.inj h
    exact regular_of_ofText? hf
  next =>
    split at h
    · cases h
    · cases h
    · split at h
      · cases h
      · split at h
        · obtain rfl := Except.ok.inj h
          exact fun _ => rfl
        · cases h
        · exact regular_of_resolved h

/-- **A printed endpoint names itself.** -/
lemma named_text (h : Regular e) : named e.text = .ok e := by
  obtain ⟨a, port, scope⟩ := e
  have hport := port.toNat_lt
  have hbound : bounded? u16Max (decimal port.toNat) = some port.toNat :=
    bounded?_decimal (by rw [u16Max]; omega)
  have hcolon : ':' ∉ decimal port.toNat := by
    intro hmem
    have := isDigit_of_mem_decimal hmem
    revert this
    decide
  cases a with
  | v4 b c d f =>
    obtain rfl : scope = 0 := h rfl
    exact (named_eq_ok_iff knowsNoBrackets_empty (.octets (ofV4Text?_text b c d f)) hcolon).mpr
      ⟨_, portOf?_of_bounded? hbound, by simp⟩
  | v6 gs =>
    by_cases hscope : scope = 0
    · subst hscope
      have hnamed := (named_eq_ok_iff knowsNoBrackets_empty (.groups (ofV6Text?_text gs))
        hcolon).mpr ⟨_, portOf?_of_bounded? hbound, rfl⟩
      simpa [Endpoint.text, Address.text] using hnamed
    · have hlt := scope.toNat_lt
      have hnamed := (named_eq_ok_iff knowsNoBrackets_empty (.zoned (ofV6Text?_text gs)
        (bounded?_decimal (by rw [u32Max]; omega : scope.toNat ≤ u32Max))) hcolon).mpr
        ⟨_, portOf?_of_bounded? hbound, rfl⟩
      simpa [Endpoint.text, Address.text, hscope] using hnamed

/-- Different endpoints are printed differently. -/
lemma toString_inj {f : Endpoint} (he : Regular e) (hf : Regular f) :
    e.toString = f.toString ↔ e = f := by
  refine ⟨fun h => ?_, fun h => h ▸ rfl⟩
  have htext : e.text = f.text := String.ofList_injective h
  have hnamed := named_text he
  rw [htext, named_text hf] at hnamed
  exact (Except.ok.inj hnamed).symm

end NodeWatch.Net.Endpoint

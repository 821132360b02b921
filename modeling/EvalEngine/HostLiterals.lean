import Mathlib.Data.List.Basic
import Mathlib.Data.Nat.Digits.Defs

namespace EvalEngine.HostLiterals

def digit? (c : Char) : Option ℕ :=
  if '0' ≤ c ∧ c ≤ '9' then some (c.toNat - '0'.toNat)
  else if 'a' ≤ c ∧ c ≤ 'f' then some (c.toNat - 'a'.toNat + 10)
  else if 'A' ≤ c ∧ c ≤ 'F' then some (c.toNat - 'A'.toNat + 10)
  else none

/-- A nonempty text of digits. -/
def number? (base : ℕ) : List Char → Option ℕ
  | [] => none
  | cs => cs.foldlM (fun n c => ((digit? c).filter (· < base)).map (n * base + ·)) 0

/-- A part of an IPv4 address as `inet_aton` reads it: hexadecimal behind `0x`,
octal behind `0`, decimal otherwise. -/
def part? : List Char → Option ℕ
  | '0' :: 'x' :: cs => number? 16 cs
  | '0' :: 'X' :: cs => number? 16 cs
  | '0' :: c :: cs => number? 8 (c :: cs)
  | cs => number? 10 cs

/-- An IPv4 address in any of the forms of `inet_aton`: one to four parts, the
last of which fills the remaining bytes. -/
def ipv4? (host : List Char) : Option ℕ :=
  match (host.splitOn '.').mapM part? with
  | some [a] => if a < 2 ^ 32 then some a else none
  | some [a, b] => if a < 256 ∧ b < 2 ^ 24 then some (a * 2 ^ 24 + b) else none
  | some [a, b, c] =>
    if a < 256 ∧ b < 256 ∧ c < 2 ^ 16 then some (a * 2 ^ 24 + b * 2 ^ 16 + c) else none
  | some [a, b, c, d] =>
    if a < 256 ∧ b < 256 ∧ c < 256 ∧ d < 256 then
      some (a * 2 ^ 24 + b * 2 ^ 16 + c * 2 ^ 8 + d)
    else none
  | _ => none

/-- One to four hexadecimal digits. -/
def isHextet (cs : List Char) : Bool :=
  decide (1 ≤ cs.length ∧ cs.length ≤ 4) && cs.all (fun c => (digit? c).isSome)

/-- How many groups of 16 bits a part of an IPv6 address stands for. The last
part may be an IPv4 address. -/
def groups? : List (List Char) → Option ℕ
  | [] => some 0
  | [last] => if isHextet last then some 1 else (ipv4? last).map (fun _ => 2)
  | part :: rest => if isHextet part then (groups? rest).map (· + 1) else none

def side? (cs : List Char) : Option ℕ := if cs = [] then some 0 else groups? (cs.splitOn ':')

/-- The texts before and behind the first `::`. -/
def splitDouble : List Char → Option (List Char × List Char)
  | ':' :: ':' :: rest => some ([], rest)
  | c :: rest => (splitDouble rest).map (fun halves => (c :: halves.1, halves.2))
  | [] => none

/-- An IPv6 address, without its brackets and with or without a zone. -/
def isIpv6 (host : List Char) : Bool :=
  let address := host.takeWhile (· ≠ '%')
  match splitDouble address with
  | some (high, low) =>
    match side? high, side? low with
    | some m, some n => decide (m + n ≤ 7) && decide ('.' ∉ high)
    | _, _ => false
  | none => side? address == some 8

/-- The host is a literal address, IPv4 or IPv6. -/
def isLiteral (host : List Char) : Bool := (ipv4? host).isSome || isIpv6 host

example : ["127.0.0.1", "0x7f.1", "017700000001", "2130706433", "::1", "::ffff:10.0.0.1",
    "fe80::1%eth0", "2001:db8:0:0:0:0:0:1"].all (fun host => isLiteral host.toList) = true := by
  decide +kernel

example : ["localhost", "10.example.com", "1.2.3.4.5", "cafe", "1:::2", "1.2.3.4::", "300.0.0.1"].any
    (fun host => isLiteral host.toList) = false := by
  decide +kernel

/-- The dotted decimal form. -/
def dotted (a b c d : ℕ) : List Char :=
  Nat.toDigits 10 a ++ '.' :: (Nat.toDigits 10 b ++ '.' :: (Nat.toDigits 10 c ++
    '.' :: Nat.toDigits 10 d))

theorem part?_toDigits : ∀ n < 256, part? (Nat.toDigits 10 n) = some n := by decide +kernel

theorem dot_notMem_toDigits : ∀ n < 256, '.' ∉ Nat.toDigits 10 n := by decide +kernel

theorem toDigits_inj {m n : ℕ} (hm : m < 256) (hn : n < 256) :
    Nat.toDigits 10 m = Nat.toDigits 10 n ↔ m = n := by
  constructor
  · intro h
    have hpart := part?_toDigits m hm
    rw [h, part?_toDigits n hn] at hpart
    exact (Option.some.inj hpart).symm
  · intro h
    rw [h]

theorem splitOn_dotted {a b c d : ℕ} (ha : a < 256) (hb : b < 256) (hc : c < 256) (hd : d < 256) :
    (dotted a b c d).splitOn '.' =
      [Nat.toDigits 10 a, Nat.toDigits 10 b, Nat.toDigits 10 c, Nat.toDigits 10 d] := by
  rw [dotted, List.splitOn_append_cons_self_of_not_mem (dot_notMem_toDigits a ha),
    List.splitOn_append_cons_self_of_not_mem (dot_notMem_toDigits b hb),
    List.splitOn_append_cons_self_of_not_mem (dot_notMem_toDigits c hc),
    List.splitOn_eq_singleton (dot_notMem_toDigits d hd)]

theorem ipv4?_dotted {a b c d : ℕ} (ha : a < 256) (hb : b < 256) (hc : c < 256) (hd : d < 256) :
    ipv4? (dotted a b c d) = some (a * 2 ^ 24 + b * 2 ^ 16 + c * 2 ^ 8 + d) := by
  rw [ipv4?, splitOn_dotted ha hb hc hd]
  simp [part?_toDigits, ha, hb, hc, hd]

theorem isLiteral_dotted {a b c d : ℕ} (ha : a < 256) (hb : b < 256) (hc : c < 256)
    (hd : d < 256) : isLiteral (dotted a b c d) = true := by
  rw [isLiteral, ipv4?_dotted ha hb hc hd]
  rfl

/-- Up to its first separator a prefix determines what it begins. -/
theorem prefix_separator {α : Type*} {sep : α} {p q x y : List α} (hp : sep ∉ p) (hq : sep ∉ q) :
    p ++ sep :: x <+: q ++ sep :: y ↔ p = q ∧ x <+: y := by
  induction p generalizing q with
  | nil =>
    cases q with
    | nil => simp
    | cons c q =>
      have hne : sep ≠ c := fun h => hq (by simp [h])
      simp [hne]
  | cons c p ih =>
    have hc : sep ≠ c := fun h => hp (by simp [h])
    have hp' : sep ∉ p := fun h => hp (List.mem_cons_of_mem _ h)
    cases q with
    | nil => simp [Ne.symm hc]
    | cons c' q =>
      have hq' : sep ∉ q := fun h => hq (List.mem_cons_of_mem _ h)
      simp only [List.cons_append, List.cons_prefix_cons, ih hp' hq', List.cons.injEq, and_assoc]

end EvalEngine.HostLiterals

import Forge.Gateway.Address

/-!
# Private addresses

`isPrivateAddress` classifies the text of an address, an IPv4 address by its octets and an IPv6 address by the way
its text begins.

**`isPrivateAddress_settled`**: an IPv4 text is private exactly in the listed blocks. All spellings of an IPv6 address
get one answer, which is "private" for the special addresses, if and only if the address is settled: no other spelling
of its first groups, and no private IPv4 address in its last two, is told apart by the text alone.
-/

namespace Forge.Gateway

/-! ### The classifier -/

/-- `Number` of a piece between dots; the pieces have decimal digits alone. -/
def number (piece : List Char) : Option ℕ :=
  if piece.all Char.isDigit then some (Nat.ofDigitChars 10 piece 0) else none

def ipv4Private (address : List Char) : Bool :=
  match (address.splitOn '.').mapM number with
  | some [a, b, c, _] =>
    a = 0 || a = 10 || a = 127 || (a = 100 && 64 ≤ b && b ≤ 127) || (a = 169 && b = 254) ||
      (a = 172 && 16 ≤ b && b ≤ 31) || (a = 192 && b = 0) || (a = 192 && b = 168) ||
      (a = 198 && (b = 18 || b = 19)) || (a = 198 && b = 51 && c = 100) || (a = 203 && b = 0 && c = 113) || 224 ≤ a
  | _ => true

/-- `\d{1,3}(?:\.\d{1,3}){3}` -/
def isDotted (text : List Char) : Bool :=
  (text.splitOn '.').length = 4 &&
    (text.splitOn '.').all fun piece => 1 ≤ piece.length && piece.length ≤ 3 && piece.all Char.isDigit

/-- Octets in decimal, with dots between them. -/
def dotted (octets : List ℕ) : List Char := ['.'].intercalate (octets.map (Nat.toDigits 10))

/-- The four octets of two groups. -/
def octetsOf (high low : ℕ) : List ℕ := [high / 256, high % 256, low / 256, low % 256]

def mappedIpv4 (address : List Char) : Option (List Char) :=
  if (address.take 7).map Char.toLower = "::ffff:".toList then
    if isDotted (address.drop 7) then some (address.drop 7)
    else match (address.drop 7).splitOn ':' with
      | [high, low] =>
        match hexGroup high, hexGroup low with
        | some high, some low => some (dotted (octetsOf high low))
        | _, _ => none
      | _ => none
  else none

/-- What is tested of a text that is not mapped. -/
def beginsPrivate (normalized : List Char) : Bool :=
  normalized = "::".toList || normalized = "::1".toList ||
    ["fc", "fd", "fe8", "fe9", "fea", "feb", "ff", "64:ff9b:", "2001:2:", "2001:db8:"].any
      (fun start => start.toList.isPrefixOf normalized) || normalized = "2001:db8::".toList

def ipv6Private (address : List Char) : Bool :=
  let normalized := (address.map Char.toLower).takeWhile (· ≠ '%')
  match mappedIpv4 normalized with
  | some mapped => ipv4Private mapped
  | none => beginsPrivate normalized

def isPrivateAddress (address : List Char) : Bool :=
  if isIP address = 4 then ipv4Private address
  else if isIP address = 6 then ipv6Private address
  else true

/-- `assertPublicEndpointResolution`: `answers` are the addresses the host name resolves to, if it does. An error is its
text and its status. -/
def assertPublicEndpointResolution (label : String) (allowPrivate : Bool) (answers : Option (List (List Char))) :
    Except (String × ℕ) Unit :=
  if allowPrivate then .ok ()
  else match answers with
    | none => .error (label ++ " host resolution failed", 503)
    | some addresses =>
      if addresses = [] || addresses.any isPrivateAddress then
        .error (label ++ " resolves to a private or unavailable address", 503)
      else .ok ()

/-! ### IPv4 -/

/-- A block of IPv4 addresses: those that agree with `network` in the first `bits` bits. -/
structure Block where
  network : List ℕ
  bits : ℕ

def ipv4Value (octets : List ℕ) : ℕ := octets.foldl (fun n octet => 256 * n + octet) 0

def Block.Contains (block : Block) (octets : List ℕ) : Prop :=
  ipv4Value octets / 2 ^ (32 - block.bits) = ipv4Value block.network / 2 ^ (32 - block.bits)

/-- The ranges of the classifier, in its order. -/
def listedBlocks : List Block :=
  [⟨[0, 0, 0, 0], 8⟩, ⟨[10, 0, 0, 0], 8⟩, ⟨[127, 0, 0, 0], 8⟩, ⟨[100, 64, 0, 0], 10⟩, ⟨[169, 254, 0, 0], 16⟩,
    ⟨[172, 16, 0, 0], 12⟩, ⟨[192, 0, 0, 0], 16⟩, ⟨[192, 168, 0, 0], 16⟩, ⟨[198, 18, 0, 0], 15⟩,
    ⟨[198, 51, 100, 0], 24⟩, ⟨[203, 0, 113, 0], 24⟩, ⟨[224, 0, 0, 0], 3⟩]

/-- Four octets are in a listed block. -/
def Listed (octets : List ℕ) : Prop := ∃ block ∈ listedBlocks, block.Contains octets

theorem number_of_octet {piece : List Char} {n : ℕ} (h : octet piece = some n) : number piece = some n := by
  unfold octet at h
  split_ifs at h
  obtain ⟨-, hdigits, rfl, -⟩ := Text.digits_eq_some h
  rw [number, if_pos (List.all_eq_true.mpr hdigits)]

theorem number_toDigits (n : ℕ) : number (Nat.toDigits 10 n) = some n := by
  have hall : (Nat.toDigits 10 n).all Char.isDigit = true :=
    List.all_eq_true.mpr fun _ hc => Nat.isDigit_of_mem_toDigits (by decide) (by decide) hc
  rw [number, if_pos hall, Nat.ofDigitChars_ten_toDigits]

/-- The first bits of four octets. -/
theorem ipv4Value_div {a b c e : ℕ} (hb : b < 256) (hc : c < 256) (he : e < 256) :
    ipv4Value [a, b, c, e] / 2 ^ 24 = a ∧ ipv4Value [a, b, c, e] / 2 ^ 16 = 256 * a + b ∧
      ipv4Value [a, b, c, e] / 2 ^ 8 = 65536 * a + 256 * b + c := by
  simp only [ipv4Value, List.foldl_cons, List.foldl_nil]
  refine ⟨by omega, by omega, by omega⟩

/-- For four octets the classifier's conditions are the listed blocks. -/
theorem ipv4Private_iff {address : List Char} {a b c e : ℕ}
    (h : (address.splitOn '.').mapM number = some [a, b, c, e]) (ha : a < 256) (hb : b < 256) (hc : c < 256)
    (he : e < 256) : ipv4Private address = true ↔ Listed [a, b, c, e] := by
  obtain ⟨h8, h16, h24⟩ := ipv4Value_div (a := a) hb hc he
  have h10 : ipv4Value [a, b, c, e] / 2 ^ 22 = (256 * a + b) / 64 := by omega
  have h12 : ipv4Value [a, b, c, e] / 2 ^ 20 = (256 * a + b) / 16 := by omega
  have h15 : ipv4Value [a, b, c, e] / 2 ^ 17 = (256 * a + b) / 2 := by omega
  have h3 : ipv4Value [a, b, c, e] / 2 ^ 29 = a / 32 := by omega
  rw [ipv4Private, h]
  simp only [Listed, listedBlocks, List.mem_cons, List.not_mem_nil, or_false, exists_eq_or_imp, exists_eq_left,
    Block.Contains, Bool.or_eq_true, or_assoc, Nat.reduceSub, h8, h16, h24, h10, h12, h15, h3]
  simp only [ipv4Value, List.foldl_cons, List.foldl_nil, Nat.reducePow, Nat.reduceMul, Nat.reduceAdd, Nat.reduceDiv,
    Bool.and_eq_true, Bool.or_eq_true, decide_eq_true_eq]
  refine or_congr ?_ <| or_congr ?_ <| or_congr ?_ <| or_congr ?_ <| or_congr ?_ <| or_congr ?_ <| or_congr ?_ <|
    or_congr ?_ <| or_congr ?_ <| or_congr ?_ <| or_congr ?_ ?_ <;> omega

theorem mapM_number_of_parseIpv4 {text : List Char} {octets : List ℕ} (h : parseIpv4 text = some octets) :
    (text.splitOn '.').mapM number = some octets :=
  Codec.mapM_eq_some_iff.mpr ((parseIpv4_eq_some h).1.imp fun _ _ hoctet => number_of_octet hoctet)

theorem mapM_number_dotted {octets : List ℕ} (h : octets ≠ []) :
    ((dotted octets).splitOn '.').mapM number = some octets := by
  have hdot : ∀ piece ∈ octets.map (Nat.toDigits 10), '.' ∉ piece := by
    intro piece hpiece
    obtain ⟨n, -, rfl⟩ := List.mem_map.mp hpiece
    exact Text.not_mem_toDigits (by decide) n
  rw [dotted, List.splitOn_intercalate _ hdot (by simpa using h), Codec.mapM_eq_some_iff, List.forall₂_map_left_iff,
    List.forall₂_same]
  exact fun n _ => number_toDigits n

/-- An IPv4 text is private exactly in the listed blocks. -/
theorem isPrivateAddress_ipv4 {text : List Char} {octets : List ℕ} (h : parseIpv4 text = some octets) :
    isPrivateAddress text = true ↔ Listed octets := by
  obtain ⟨a, b, c, e, rfl, ha, hb, hc, he⟩ := parseIpv4_octets h
  rw [isPrivateAddress, if_pos (by rw [isIP, h]; rfl)]
  exact ipv4Private_iff (mapM_number_of_parseIpv4 h) ha hb hc he

/-- The classifier sees the octets of a text alone. -/
theorem ipv4Private_congr {text text' : List Char}
    (h : (text.splitOn '.').mapM number = (text'.splitOn '.').mapM number) :
    ipv4Private text = ipv4Private text' := by
  rw [ipv4Private, h, ipv4Private]

/-! ### The special addresses -/

/-- The IPv4 address in the last two groups, as text. -/
def Ipv6Address.embedded (a : Ipv6Address) : List Char := dotted (octetsOf (a.group 6) (a.group 7))

/-- The addresses no outbound request may go to. -/
inductive Special (a : Ipv6Address) : Prop
  | unspecified (h : a.groups = [0, 0, 0, 0, 0, 0, 0, 0])
  | loopback (h : a.groups = [0, 0, 0, 0, 0, 0, 0, 1])
  /-- `fc00::/7` -/
  | uniqueLocal (h : a.group 0 / 2 ^ 9 = 0xfc00 / 2 ^ 9)
  /-- `fe80::/10` -/
  | linkLocal (h : a.group 0 / 2 ^ 6 = 0xfe80 / 2 ^ 6)
  /-- `ff00::/8` -/
  | multicast (h : a.group 0 / 2 ^ 8 = 0xff00 / 2 ^ 8)
  /-- `2001:db8::/32` -/
  | documentation (h : a.groups.take 2 = [0x2001, 0xdb8])
  /-- `64:ff9b::/96` -/
  | nat64 (h : a.groups.take 6 = [0x64, 0xff9b, 0, 0, 0, 0])
  /-- `::ffff:0:0/96` -/
  | mapped (h : a.groups.take 6 = [0, 0, 0, 0, 0, 0xffff]) (hprivate : ipv4Private a.embedded = true)
  /-- `::/96` -/
  | compatible (h : a.groups.take 6 = [0, 0, 0, 0, 0, 0]) (hprivate : ipv4Private a.embedded = true)

/-- All spellings of an address get one answer, and a special address is private. -/
structure Judged (a : Ipv6Address) : Prop where
  alike : ∃ answer, ∀ text, Spells text a → isPrivateAddress text = answer
  special : Special a → ∀ text, Spells text a → isPrivateAddress text = true

/-- A group of two or three digits that begins like a private one of four. -/
def ShortStart (g : ℕ) : Prop :=
  g = 0xfc ∨ g = 0xfd ∨ g = 0xff ∨ (0xfc0 ≤ g ∧ g ≤ 0xfdf) ∨ (0xff0 ≤ g ∧ g ≤ 0xfff) ∨ (0xfe8 ≤ g ∧ g ≤ 0xfeb)

/-- No spelling of the address can be taken for another address, and none hides a private one. -/
structure Settled (a : Ipv6Address) : Prop where
  first : ¬ShortStart (a.group 0)
  translated : ¬(a.group 0 = 0x64 ∧ a.group 1 = 0xff9b)
  reserved : ¬(a.group 0 = 0x2001 ∧ (a.group 1 = 2 ∨ a.group 1 = 0xdb8))
  embedded : a.groups.take 5 = [0, 0, 0, 0, 0] → (a.group 5 = 0 ∨ a.group 5 = 0xffff) →
    ipv4Private a.embedded = false

/-- `fc00::/7`, `fe80::/10` and `ff00::/8` are the addresses whose first group has four digits and shows it. -/
def WideStart (g : ℕ) : Prop :=
  (0xfc00 ≤ g ∧ g ≤ 0xfdff) ∨ (0xfe80 ≤ g ∧ g ≤ 0xfebf) ∨ (0xff00 ≤ g ∧ g ≤ 0xffff)

/-! ### How a text begins -/

theorem parseGroups_cons {piece rest : List Char} {g : ℕ} (h : hexGroup piece = some g) :
    parseGroups (piece ++ ':' :: rest) =
      (if rest.head? = some ':' then doubleColon 7 rest.tail else groupsFrom 7 rest).map (g :: ·) := by
  rw [parseGroups, if_neg, groupsFrom_cons h]
  intro e
  have hhead := congrArg List.head? e
  rw [List.head?_take, if_neg (by decide)] at hhead
  exact head?_of_hexGroup h _ hhead

/-- A text that does not begin with `::` begins with its first group. -/
theorem exists_first {text : List Char} {groups : List ℕ} (h : parseGroups text = some groups)
    (hhead : text.head? ≠ some ':') :
    ∃ piece rest g others, text = piece ++ ':' :: rest ∧ hexGroup piece = some g ∧ groups = g :: others := by
  rw [parseGroups, if_neg] at h
  · obtain ⟨piece, rest, g, others, htext, hg, hgroups, -⟩ := groupsFrom_eq_some h
    exact ⟨piece, rest, g, others, htext, hg, hgroups⟩
  · intro e
    have hcolon := congrArg List.head? e
    rw [List.head?_take, if_neg (by decide)] at hcolon
    exact hhead hcolon

theorem foldl_digits_le (digits : List ℕ) (n : ℕ) :
    n * 16 ^ digits.length ≤ digits.foldl (fun n digit => 16 * n + digit) n := by
  induction digits generalizing n with
  | nil => simp
  | cons v digits ih =>
    calc n * 16 ^ (v :: digits).length
        = (16 * n) * 16 ^ digits.length := by rw [List.length_cons, Nat.pow_succ', ← Nat.mul_assoc, Nat.mul_comm n 16]
      _ ≤ (16 * n + v) * 16 ^ digits.length := Nat.mul_le_mul_right _ (by omega)
      _ ≤ (v :: digits).foldl (fun n digit => 16 * n + digit) n := ih _

/-- The leading digits of a group. -/
theorem hexGroup_append {start piece : List Char} {v g : ℕ} (hstart : hexGroup start = some v)
    (h : hexGroup (start ++ piece) = some g) :
    start.length + piece.length ≤ 4 ∧ v * 16 ^ piece.length ≤ g ∧ g < (v + 1) * 16 ^ piece.length := by
  obtain ⟨-, -, high, hhigh, rfl⟩ := hexGroup_eq_some hstart
  obtain ⟨-, hlen, digits, hdigits, rfl⟩ := hexGroup_eq_some h
  rw [List.length_append] at hlen
  have hmap := Codec.mapM_eq_some_iff.mpr hdigits
  rw [List.mapM_append, Codec.mapM_eq_some_iff.mpr hhigh] at hmap
  obtain ⟨_, hsome, hmap⟩ := Option.bind_eq_some_iff.mp hmap
  cases hsome
  obtain ⟨low, hlow, hsome⟩ := Option.bind_eq_some_iff.mp hmap
  cases hsome
  have hlow := Codec.mapM_eq_some_iff.mp hlow
  rw [hlow.length_eq] at hlen ⊢
  rw [List.foldl_append]
  exact ⟨hlen, foldl_digits_le _ _, foldl_digits_lt (digits_lt hlow) _⟩

/-- What the first characters of a text say about the first group. -/
theorem first_of_prefix {text start : List Char} {groups : List ℕ} {v : ℕ} (h : parseGroups text = some groups)
    (hstart : hexGroup start = some v) (hbegin : start <+: text) :
    ∃ k, start.length + k ≤ 4 ∧ v * 16 ^ k ≤ groups.getD 0 0 ∧ groups.getD 0 0 < (v + 1) * 16 ^ k := by
  obtain ⟨tail, rfl⟩ := hbegin
  obtain ⟨piece, rest, g, others, htext, hg, rfl⟩ := exists_first h (head?_of_hexGroup hstart tail)
  rcases List.append_eq_append_iff.mp htext with ⟨more, rfl, -⟩ | ⟨more, rfl, hmore⟩
  · obtain ⟨hlen, hle, hlt⟩ := hexGroup_append hstart hg
    exact ⟨more.length, hlen, hle, hlt⟩
  · cases more with
    | nil =>
      rw [List.append_nil] at hstart ⊢
      cases hg.symm.trans hstart
      exact ⟨0, (hexGroup_eq_some hg).2.1, by simp, by simp⟩
    | cons c more =>
      cases hmore
      exact absurd (by simp) (not_mem_of_hexGroup (c := ':') hstart (by decide))

/-- What two written groups say. -/
theorem second_of_prefix {text first second : List Char} {groups : List ℕ} {v w : ℕ}
    (h : parseGroups text = some groups) (hfirst : hexGroup first = some v) (hsecond : hexGroup second = some w)
    (hbegin : first ++ ':' :: (second ++ [':']) <+: text) : groups.getD 0 0 = v ∧ groups.getD 1 0 = w := by
  obtain ⟨tail, rfl⟩ := hbegin
  rw [List.append_assoc, List.cons_append, List.append_assoc, List.singleton_append, parseGroups_cons hfirst,
    if_neg (head?_of_hexGroup hsecond _), groupsFrom_cons hsecond] at h
  obtain ⟨others, hothers, rfl⟩ := Option.map_eq_some_iff.mp h
  obtain ⟨others, -, rfl⟩ := Option.map_eq_some_iff.mp hothers
  exact ⟨rfl, rfl⟩

/-- A first group that begins like a private one is private, or too short. -/
theorem wideStart_or_shortStart {g v k len : ℕ} (hk : len + k ≤ 4) (hle : v * 16 ^ k ≤ g)
    (hlt : g < (v + 1) * 16 ^ k)
    (hv : len = 2 ∧ (v = 0xfc ∨ v = 0xfd ∨ v = 0xff) ∨ len = 3 ∧ 0xfe8 ≤ v ∧ v ≤ 0xfeb) :
    WideStart g ∨ ShortStart g := by
  unfold WideStart ShortStart
  have hk2 : k ≤ 2 := by omega
  interval_cases k <;> omega

/-- The two loopback texts spell addresses with a private IPv4 address in them. -/
theorem not_settled_of_zero {a : Ipv6Address} {low : ℕ} (h : a.groups = [0, 0, 0, 0, 0, 0, 0, low]) (hlow : low < 256) :
    ¬Settled a := by
  intro hsettled
  have hpublic := hsettled.embedded (by rw [h]; rfl) (.inl (by rw [Ipv6Address.group, h]; rfl))
  have hembedded : a.embedded = dotted [0, 0, low / 256, low % 256] := by
    simp [Ipv6Address.embedded, Ipv6Address.group, h, octetsOf]
  rw [hembedded, Bool.eq_false_iff, ne_eq, ipv4Private_iff (mapM_number_dotted (by simp)) (by decide) (by decide)
    (by omega) (by omega)] at hpublic
  apply hpublic
  exact ⟨_, List.mem_cons_self, by simp [Block.Contains, ipv4Value]; omega⟩

/-- What the prefixes of the classifier say about an address. -/
theorem wideStart_of_beginsPrivate {text : List Char} {a : Ipv6Address} (h : parseGroups text = some a.groups)
    (hbegins : beginsPrivate text = true) : WideStart (a.group 0) ∨ ¬Settled a := by
  have hone : ∀ (start : List Char) v, hexGroup start = some v →
      (start.length = 2 ∧ (v = 0xfc ∨ v = 0xfd ∨ v = 0xff) ∨ start.length = 3 ∧ 0xfe8 ≤ v ∧ v ≤ 0xfeb) →
      start <+: text → WideStart (a.group 0) ∨ ¬Settled a := by
    intro start v hv hcase hbegin
    obtain ⟨k, hk, hle, hlt⟩ := first_of_prefix h hv hbegin
    exact (wideStart_or_shortStart hk hle hlt hcase).imp_right fun hs hsettled => hsettled.first hs
  have htwo : ∀ (first second : List Char) v w, hexGroup first = some v → hexGroup second = some w →
      (v = 0x64 ∧ w = 0xff9b ∨ v = 0x2001 ∧ (w = 2 ∨ w = 0xdb8)) →
      first ++ ':' :: (second ++ [':']) <+: text → WideStart (a.group 0) ∨ ¬Settled a := by
    intro first second v w hv hw hcase hbegin
    obtain ⟨rfl, rfl⟩ := second_of_prefix h hv hw hbegin
    exact .inr fun hsettled => hcase.elim hsettled.translated hsettled.reserved
  have hzero : ∀ low < 256, parseGroups text = some [0, 0, 0, 0, 0, 0, 0, low] →
      WideStart (a.group 0) ∨ ¬Settled a := fun low hlow htext =>
    .inr (not_settled_of_zero (Option.some.inj (h.symm.trans htext)) hlow)
  simp only [beginsPrivate, Bool.or_eq_true, decide_eq_true_eq, List.any_eq_true, List.isPrefixOf_iff_prefix] at hbegins
  obtain ((htext | htext) | ⟨start, hmem, hbegin⟩) | htext := hbegins
  · exact hzero 0 (by decide) (by rw [htext]; decide)
  · exact hzero 1 (by decide) (by rw [htext]; decide)
  · simp only [List.mem_cons, List.not_mem_nil, or_false] at hmem
    rcases hmem with rfl | rfl | rfl | rfl | rfl | rfl | rfl | rfl | rfl | rfl
    · exact hone "fc".toList 0xfc (by decide) (by decide) hbegin
    · exact hone "fd".toList 0xfd (by decide) (by decide) hbegin
    · exact hone "fe8".toList 0xfe8 (by decide) (by decide) hbegin
    · exact hone "fe9".toList 0xfe9 (by decide) (by decide) hbegin
    · exact hone "fea".toList 0xfea (by decide) (by decide) hbegin
    · exact hone "feb".toList 0xfeb (by decide) (by decide) hbegin
    · exact hone "ff".toList 0xff (by decide) (by decide) hbegin
    · exact htwo "64".toList "ff9b".toList 0x64 0xff9b (by decide) (by decide) (by decide) hbegin
    · exact htwo "2001".toList "2".toList 0x2001 2 (by decide) (by decide) (by decide) hbegin
    · exact htwo "2001".toList "db8".toList 0x2001 0xdb8 (by decide) (by decide) (by decide) hbegin
  · exact htwo "2001".toList "db8".toList 0x2001 0xdb8 (by decide) (by decide) (by decide) ⟨[':'], by rw [htext]; rfl⟩

/-- A private first group shows in lower case, however the text goes on. -/
theorem beginsPrivate_of_wideStart {text : List Char} {groups : List ℕ} (h : parseGroups text = some groups)
    (hlower : text.map Char.toLower = text) (hwide : WideStart (groups.getD 0 0)) :
    beginsPrivate text = true ∧ text.head? = some 'f' := by
  have hpos : 4096 ≤ groups.getD 0 0 := by
    unfold WideStart at hwide
    omega
  have hgroups : groupsFrom 8 text = some groups := by
    rw [parseGroups] at h
    split_ifs at h
    · obtain ⟨-, hhead⟩ := groups_doubleColon h
      rw [List.getD_eq_getElem?_getD, ← List.head?_eq_getElem?, hhead] at hpos
      cases hpos
    · exact h
  obtain ⟨piece, rest, g, others, rfl, hg, rfl, -⟩ := groupsFrom_eq_some hgroups
  obtain ⟨-, hlen, digits, hdigits, hfold⟩ := hexGroup_eq_some hg
  have hlt := digits_lt hdigits
  have hbound := foldl_digits_lt hlt 0
  change 4096 ≤ g at hpos
  change WideStart g at hwide
  have hfour : digits.length = 4 := by
    have hle := hdigits.length_eq ▸ hlen
    by_contra hne
    have : 16 ^ digits.length ≤ 16 ^ 3 := Nat.pow_le_pow_right (by decide) (by omega)
    omega
  obtain ⟨v₁, v₂, v₃, v₄, rfl⟩ := List.length_eq_four.mp hfour
  simp only [List.forall₂_cons_right_iff, List.forall₂_nil_right_iff] at hdigits
  obtain ⟨c₁, _, h₁, ⟨c₂, _, h₂, ⟨c₃, _, h₃, ⟨c₄, _, h₄, rfl, rfl⟩, rfl⟩, rfl⟩, rfl⟩ := hdigits
  simp only [List.forall_mem_cons] at hlt
  simp only [List.foldl_cons, List.foldl_nil] at hfold
  simp only [List.map_cons, List.cons_append, List.nil_append, List.cons.injEq,
    toLower_of_hexValue h₁, toLower_of_hexValue h₂, toLower_of_hexValue h₃] at hlower
  obtain ⟨rfl, rfl, rfl, -⟩ := hlower
  have hfirst : v₁ = 15 := by
    unfold WideStart at hwide
    omega
  subst hfirst
  have hcases : v₂ = 12 ∨ v₂ = 13 ∨ v₂ = 15 ∨ v₂ = 14 ∧ (v₃ = 8 ∨ v₃ = 9 ∨ v₃ = 10 ∨ v₃ = 11) := by
    unfold WideStart at hwide
    omega
  rcases hcases with rfl | rfl | rfl | ⟨rfl, rfl | rfl | rfl | rfl⟩ <;>
    simp [beginsPrivate, hexDigit, List.isPrefixOf]

/-! ### Mapped texts -/

theorem groups_of_mapped {tail : List Char} {groups : List ℕ}
    (h : parseGroups ("::ffff:".toList ++ tail) = some groups) :
    ∃ low, tailGroups 6 tail = some low ∧ groups = List.replicate (7 - low.length) 0 ++ 0xffff :: low := by
  have hdouble : doubleColon 8 ("ffff".toList ++ ':' :: tail) = some groups := h
  have hffff : hexGroup "ffff".toList = some 0xffff := by decide
  rw [doubleColon, if_neg (by simp), tailGroups_cons hffff, Option.map_map] at hdouble
  obtain ⟨low, hlow, rfl⟩ := Option.map_eq_some_iff.mp hdouble
  exact ⟨low, hlow, by simp⟩

theorem isDotted_iff {text : List Char} : isDotted text = true ↔ (text.splitOn '.').length = 4 ∧
    ∀ piece ∈ text.splitOn '.', (1 ≤ piece.length ∧ piece.length ≤ 3) ∧ ∀ c ∈ piece, c.isDigit = true := by
  simp [isDotted, List.all_eq_true]

theorem tailGroups_of_isDotted {tail : List Char} {low : List ℕ} (hdotted : isDotted tail = true)
    (h : tailGroups 6 tail = some low) : dottedGroups tail = some low := by
  obtain ⟨hlen, hpieces⟩ := isDotted_iff.mp hdotted
  have hcolon : ':' ∉ tail := fun hmem => by
    obtain ⟨piece, hpiece, hc⟩ := exists_mem_splitOn (by decide : ':' ≠ '.') hmem
    exact absurd ((hpieces piece hpiece).2 _ hc) (by decide)
  have hhex : hexGroup tail = none := by
    by_contra hsome
    obtain ⟨g, hg⟩ := Option.ne_none_iff_exists'.mp hsome
    rw [List.splitOn_eq_singleton (not_mem_of_hexGroup (c := '.') hg (by decide))] at hlen
    cases hlen
  obtain ⟨htake, hdrop⟩ := takeWhile_self hcolon
  simpa only [tailGroups, htake, hdrop, hhex, Option.map_none, Option.none_or, Nat.reduceLeDiff, if_true] using h

/-- A text that the classifier takes for a mapped address spells one, and the IPv4 text it goes on with is the one in
the last two groups. -/
theorem mappedIpv4_eq_some {text mapped : List Char} {a : Ipv6Address} (h : parseGroups text = some a.groups)
    (hlower : text.map Char.toLower = text) (hmapped : mappedIpv4 text = some mapped) :
    a.groups.take 6 = [0, 0, 0, 0, 0, 0xffff] ∧ ipv4Private mapped = ipv4Private a.embedded := by
  unfold mappedIpv4 at hmapped
  split_ifs at hmapped with htake hdotted
  all_goals
    have htext : text = "::ffff:".toList ++ text.drop 7 := by
      rw [← htake, List.map_take, hlower, List.take_append_drop]
    rw [htext] at h
    obtain ⟨low, hlow, hgroups⟩ := groups_of_mapped h
  · cases hmapped
    obtain ⟨o₁, o₂, o₃, o₄, hparse, rfl⟩ := dottedGroups_eq_some (tailGroups_of_isDotted hdotted hlow)
    obtain ⟨_, _, _, _, heq, -, h₂, -, h₄⟩ := parseIpv4_octets hparse
    cases heq
    refine ⟨by rw [hgroups]; rfl, ipv4Private_congr ?_⟩
    have hoctets : octetsOf (a.group 6) (a.group 7) = [o₁, o₂, o₃, o₄] := by
      simp [octetsOf, Ipv6Address.group, hgroups]
      omega
    rw [mapM_number_of_parseIpv4 hparse, Ipv6Address.embedded, hoctets, mapM_number_dotted (by simp)]
  · split at hmapped
    · next high lowText hsplit =>
      split at hmapped
      · next g g' hhigh hlow' =>
        cases hmapped
        have htail : text.drop 7 = high ++ ':' :: lowText := by
          have hjoin : [':'].intercalate ((text.drop 7).splitOn ':') = text.drop 7 := List.intercalate_splitOn ':'
          rw [hsplit] at hjoin
          simpa using hjoin.symm
        rw [htail, tailGroups_cons hhigh, tailGroups_last hlow'] at hlow
        cases hlow
        exact ⟨by rw [hgroups]; rfl, by rw [Ipv6Address.embedded, Ipv6Address.group, Ipv6Address.group, hgroups]; rfl⟩
      · cases hmapped
    · cases hmapped

/-! ### Spellings of an address -/

theorem exists_octet {pieces : List (List Char)} {octets : List ℕ}
    (h : List.Forall₂ (fun piece n => octet piece = some n) pieces octets) :
    ∀ piece ∈ pieces, ∃ n, octet piece = some n := by
  induction h with
  | nil => simp
  | cons hn _ ih => exact List.forall_mem_cons.mpr ⟨⟨_, hn⟩, ih⟩

theorem parseIpv4_eq_none {text : List Char} (h : ':' ∈ text) : parseIpv4 text = none := by
  by_contra hsome
  obtain ⟨octets, hparse⟩ := Option.ne_none_iff_exists'.mp hsome
  obtain ⟨piece, hpiece, hc⟩ := exists_mem_splitOn (by decide : ':' ≠ '.') h
  obtain ⟨n, hn⟩ := exists_octet (parseIpv4_eq_some hparse).1 piece hpiece
  unfold octet at hn
  split_ifs at hn
  exact absurd ((Text.digits_eq_some hn).2.1 _ hc) (by decide)

/-- The address with its first two groups in `i` and `j` digits, and the others in four. -/
def Ipv6Address.spelled (i j : ℕ) (a : Ipv6Address) : List Char :=
  join (digitsOf i (a.group 0) :: digitsOf j (a.group 1) :: (a.groups.drop 2).map (digitsOf 4))

variable {i j : ℕ} {a : Ipv6Address}

theorem hexDigit_toLower (v : ℕ) : (hexDigit v).toLower = hexDigit v := by
  by_cases h : v < 16
  · rw [toLower_of_hexValue (hexValue_hexDigit h)]
  · rw [hexDigit, List.getD_eq_getElem?_getD, List.getElem?_eq_none (by simpa using h)]
    rfl

theorem mem_digitsOf {width g : ℕ} {c : Char} (h : c ∈ digitsOf width g) : ∃ v, v < 16 ∧ c = hexDigit v := by
  induction width generalizing g with
  | zero => cases h
  | succ width ih =>
    rcases List.mem_append.mp h with h | h
    · exact ih h
    · exact ⟨g % 16, Nat.mod_lt _ (by decide), List.mem_singleton.mp h⟩

/-- Every character of such a text is a colon or a digit in lower case. -/
theorem mem_spelled {c : Char} (h : c ∈ a.spelled i j) (hc : c ≠ ':') : ∃ v, v < 16 ∧ c = hexDigit v := by
  obtain ⟨piece, hpiece, hmem⟩ := mem_join h hc
  rcases List.mem_cons.mp hpiece with rfl | hpiece
  · exact mem_digitsOf hmem
  · rcases List.mem_cons.mp hpiece with rfl | hpiece
    · exact mem_digitsOf hmem
    · obtain ⟨g, -, rfl⟩ := List.mem_map.mp hpiece
      exact mem_digitsOf hmem

theorem spelled_toLower : (a.spelled i j).map Char.toLower = a.spelled i j := by
  refine (List.map_congr_left fun c hc => ?_).trans (List.map_id _)
  by_cases hcolon : c = ':'
  · rw [hcolon]
    rfl
  · obtain ⟨v, -, rfl⟩ := mem_spelled hc hcolon
    exact hexDigit_toLower v

theorem spelled_takeWhile :
    (a.spelled i j).takeWhile (· ≠ '%') = a.spelled i j ∧ (a.spelled i j).dropWhile (· ≠ '%') = [] := by
  have hall : ∀ c ∈ a.spelled i j, decide (c ≠ '%') = true := fun c hc => by
    by_cases hcolon : c = ':'
    · rw [hcolon]
      rfl
    · obtain ⟨v, hv, rfl⟩ := mem_spelled hc hcolon
      interval_cases v <;> decide
  exact ⟨List.takeWhile_eq_self_iff.mpr hall, List.dropWhile_eq_nil_iff.mpr hall⟩

theorem Ipv6Address.group_lt (a : Ipv6Address) (k : ℕ) : a.group k < 16 ^ 4 := by
  rw [group, List.getD_eq_getElem?_getD]
  cases hk : a.groups[k]? with
  | none => decide
  | some g => exact a.lt_of_mem g (List.mem_of_getElem? hk)

theorem groups_eq (a : Ipv6Address) : a.groups = a.group 0 :: a.group 1 :: a.groups.drop 2 := by
  obtain ⟨groups, hlen, -⟩ := a
  match groups, hlen with
  | g₀ :: g₁ :: others, _ => rfl

theorem spelled_eq : ∃ rest, a.spelled i j =
    digitsOf i (a.group 0) ++ ':' :: (digitsOf j (a.group 1) ++ ':' :: rest) := by
  have hlen := a.length_eq
  cases hothers : a.groups.drop 2 with
  | nil =>
    have := congrArg List.length hothers
    rw [List.length_drop, hlen] at this
    cases this
  | cons g others => exact ⟨_, by rw [Ipv6Address.spelled, hothers, List.map_cons, join_cons_cons, join_cons_cons]⟩

theorem spells_spelled (hi : 1 ≤ i ∧ i ≤ 4) (hj : 1 ≤ j ∧ j ≤ 4) (h₀ : a.group 0 < 16 ^ i) (h₁ : a.group 1 < 16 ^ j) :
    Spells (a.spelled i j) a := by
  have hgroups : parseGroups (a.spelled i j) = some a.groups := by
    refine parseGroups_join ?_ (by simp [a.length_eq])
    have hothers : List.Forall₂ (fun piece g => hexGroup piece = some g) ((a.groups.drop 2).map (digitsOf 4))
        (a.groups.drop 2) := by
      rw [List.forall₂_map_left_iff, List.forall₂_same]
      exact fun g hg => hexGroup_digitsOf (by decide) (by decide) (a.lt_of_mem g (List.mem_of_mem_drop hg))
    have hall : List.Forall₂ (fun piece g => hexGroup piece = some g) (_ :: _ :: _) (_ :: _ :: _) :=
      .cons (hexGroup_digitsOf hi.1 hi.2 h₀) (.cons (hexGroup_digitsOf hj.1 hj.2 h₁) hothers)
    rwa [← groups_eq a] at hall
  obtain ⟨htake, hdrop⟩ := spelled_takeWhile (a := a) (i := i) (j := j)
  have hparse : parseIpv6 (a.spelled i j) = some a.groups := by
    rw [parseIpv6, htake, hdrop, if_pos (by decide), hgroups]
  have hcolon : ':' ∈ a.spelled i j := by
    obtain ⟨rest, hrest⟩ := spelled_eq (a := a) (i := i) (j := j)
    rw [hrest]
    simp
  exact ⟨isIP_eq_six.mpr ⟨parseIpv4_eq_none hcolon, by rw [hparse]; rfl⟩, hparse⟩

theorem isPrivateAddress_spelled {c : Char} {more : List Char} (hspells : Spells (a.spelled i j) a)
    (htext : a.spelled i j = c :: more) (hc : c ≠ ':') :
    isPrivateAddress (a.spelled i j) = beginsPrivate (c :: more) := by
  have hmapped : mappedIpv4 (c :: more) = none := by
    rw [mappedIpv4, ← htext, if_neg]
    intro e
    rw [List.map_take, spelled_toLower, htext] at e
    exact hc (List.cons.inj e).1
  rw [isPrivateAddress, if_neg (by simp [hspells.1]), if_pos hspells.1, ipv6Private, spelled_toLower,
    spelled_takeWhile.1, htext]
  simp only [hmapped]

theorem digitsOf_four (g : ℕ) : digitsOf 4 g =
    [hexDigit (g / 16 / 16 / 16 % 16), hexDigit (g / 16 / 16 % 16), hexDigit (g / 16 % 16), hexDigit (g % 16)] := rfl

/-- Written out in full, an address that does not show its first group is not private. -/
theorem isPrivateAddress_full (h : a.group 0 < 4096 ∨ a.group 0 = 0x2001 ∧ a.group 1 < 4096) :
    Spells (a.spelled 4 4) a ∧ isPrivateAddress (a.spelled 4 4) = false := by
  have hspells : Spells (a.spelled 4 4) a := spells_spelled (by decide) (by decide) (a.group_lt 0) (a.group_lt 1)
  refine ⟨hspells, ?_⟩
  obtain ⟨rest, hrest⟩ := spelled_eq (a := a) (i := 4) (j := 4)
  rw [digitsOf_four, digitsOf_four] at hrest
  rcases h with h | ⟨h, h'⟩
  · rw [show a.group 0 / 16 / 16 / 16 % 16 = 0 by omega] at hrest
    rw [isPrivateAddress_spelled hspells hrest (by decide)]
    simp [beginsPrivate, List.isPrefixOf, hexDigit]
  · rw [h, show a.group 1 / 16 / 16 / 16 % 16 = 0 by omega] at hrest
    rw [isPrivateAddress_spelled hspells hrest (by decide)]
    simp [beginsPrivate, List.isPrefixOf, hexDigit]

theorem beginsPrivate_of_prefix {text : List Char} {start : String}
    (hmem : start ∈ ["fc", "fd", "fe8", "fe9", "fea", "feb", "ff", "64:ff9b:", "2001:2:", "2001:db8:"])
    (h : start.toList <+: text) : beginsPrivate text = true := by
  have hany : ["fc", "fd", "fe8", "fe9", "fea", "feb", "ff", "64:ff9b:", "2001:2:", "2001:db8:"].any
      (fun start => start.toList.isPrefixOf text) = true :=
    List.any_eq_true.mpr ⟨start, hmem, List.isPrefixOf_iff_prefix.mpr h⟩
  rw [beginsPrivate, hany]
  simp

theorem isPrivateAddress_of_prefix (start : String) (hi : 1 ≤ i ∧ i ≤ 4) (hj : 1 ≤ j ∧ j ≤ 4)
    (h₀ : a.group 0 < 16 ^ i) (h₁ : a.group 1 < 16 ^ j)
    (hmem : start ∈ ["fc", "fd", "fe8", "fe9", "fea", "feb", "ff", "64:ff9b:", "2001:2:", "2001:db8:"])
    (hbegin : start.toList <+: digitsOf i (a.group 0) ++ ':' :: (digitsOf j (a.group 1) ++ [':'])) :
    ∃ text, Spells text a ∧ isPrivateAddress text = true := by
  have hspells := spells_spelled hi hj h₀ h₁
  obtain ⟨rest, hrest⟩ := spelled_eq (a := a) (i := i) (j := j)
  have hstart : start.toList <+: a.spelled i j := by
    refine hbegin.trans ⟨rest, ?_⟩
    simp [hrest]
  refine ⟨a.spelled i j, hspells, ?_⟩
  obtain ⟨c, more, hc⟩ : ∃ c more, a.spelled i j = c :: more := by
    cases htext : a.spelled i j with
    | nil =>
      rw [htext, List.prefix_nil] at hstart
      simp only [List.mem_cons, List.not_mem_nil, or_false] at hmem
      rcases hmem with rfl | rfl | rfl | rfl | rfl | rfl | rfl | rfl | rfl | rfl <;> cases hstart
    | cons c more => exact ⟨c, more, rfl⟩
  have hcolon : c ≠ ':' := by
    have hhead := head?_of_hexGroup (hexGroup_digitsOf hi.1 hi.2 h₀) (':' :: (digitsOf j (a.group 1) ++ ':' :: rest))
    rw [← hrest, hc] at hhead
    simpa using hhead
  rw [isPrivateAddress_spelled hspells hc hcolon, ← hc]
  exact beginsPrivate_of_prefix hmem hstart

theorem digitsOf_three (g : ℕ) :
    digitsOf 3 g = [hexDigit (g / 16 / 16 % 16), hexDigit (g / 16 % 16), hexDigit (g % 16)] :=
  rfl

/-- A first group of two or three digits that begins like a private one is taken for it. -/
theorem exists_private_of_shortStart (h : ShortStart (a.group 0)) :
    ∃ text, Spells text a ∧ isPrivateAddress text = true := by
  have htwo : ∀ (start : String) v, start ∈ ["fc", "fd", "ff"] → v < 256 → start.toList = digitsOf 2 v →
      a.group 0 = v → ∃ text, Spells text a ∧ isPrivateAddress text = true := by
    intro start v hmem hv hstart hgroup
    refine isPrivateAddress_of_prefix (i := 2) (j := 4) start (by decide) (by decide) (by omega) (a.group_lt 1) ?_ ?_
    · simp only [List.mem_cons, List.not_mem_nil, or_false] at hmem ⊢
      tauto
    · rw [hgroup, ← hstart]
      exact List.prefix_append _ _
  have hthree : ∀ (start : String), start ∈ ["fc", "fd", "fe8", "fe9", "fea", "feb", "ff"] →
      a.group 0 < 4096 → start.toList <+: digitsOf 3 (a.group 0) →
      ∃ text, Spells text a ∧ isPrivateAddress text = true := by
    intro start hmem hlt hstart
    refine isPrivateAddress_of_prefix (i := 3) (j := 4) start (by decide) (by decide) (by omega) (a.group_lt 1) ?_
      (hstart.trans (List.prefix_append _ _))
    simp only [List.mem_cons, List.not_mem_nil, or_false] at hmem ⊢
    tauto
  rcases h with h | h | h | h | h | h
  · exact htwo "fc" 0xfc (by decide) (by decide) (by decide) h
  · exact htwo "fd" 0xfd (by decide) (by decide) (by decide) h
  · exact htwo "ff" 0xff (by decide) (by decide) (by decide) h
  · have hf : a.group 0 / 16 / 16 % 16 = 15 := by omega
    have hcd : a.group 0 / 16 % 16 = 12 ∨ a.group 0 / 16 % 16 = 13 := by omega
    rcases hcd with hc | hd
    · exact hthree "fc" (by decide) (by omega) ⟨_, by rw [digitsOf_three, hf, hc]; rfl⟩
    · exact hthree "fd" (by decide) (by omega) ⟨_, by rw [digitsOf_three, hf, hd]; rfl⟩
  · have hf : a.group 0 / 16 / 16 % 16 = 15 := by omega
    have hff : a.group 0 / 16 % 16 = 15 := by omega
    exact hthree "ff" (by decide) (by omega) ⟨_, by rw [digitsOf_three, hf, hff]; rfl⟩
  · obtain ⟨hge, hle⟩ := h
    have hcases : a.group 0 = 0xfe8 ∨ a.group 0 = 0xfe9 ∨ a.group 0 = 0xfea ∨ a.group 0 = 0xfeb := by omega
    rcases hcases with h | h | h | h
    · exact hthree "fe8" (by decide) (by omega) ⟨[], by rw [h]; decide⟩
    · exact hthree "fe9" (by decide) (by omega) ⟨[], by rw [h]; decide⟩
    · exact hthree "fea" (by decide) (by omega) ⟨[], by rw [h]; decide⟩
    · exact hthree "feb" (by decide) (by omega) ⟨[], by rw [h]; decide⟩

/-- The first six groups, when the first five are zero. -/
theorem take_six (h : a.groups.take 5 = [0, 0, 0, 0, 0]) : a.groups.take 6 = [0, 0, 0, 0, 0, a.group 5] := by
  rw [List.take_succ_eq_append_getElem (by rw [a.length_eq]; decide), h]
  rw [Ipv6Address.group, List.getD_eq_getElem?_getD, List.getElem?_eq_getElem (by rw [a.length_eq]; decide)]
  rfl

theorem take_five {g : ℕ} (h : a.groups.take 6 = [0, 0, 0, 0, 0, g]) :
    a.groups.take 5 = [0, 0, 0, 0, 0] ∧ a.group 5 = g := by
  have hfive := congrArg (List.getD · 5 0) h
  have htake := congrArg (List.take 5) h
  rw [List.take_take] at htake
  exact ⟨htake, by simpa [Ipv6Address.group] using hfive⟩

/-- An address that is not settled is not private when it is written out in full, and either another spelling of it is
private or it is special. -/
theorem exists_private_or_special (h : ¬Settled a) :
    (a.group 0 < 4096 ∨ a.group 0 = 0x2001 ∧ a.group 1 < 4096) ∧
      ((∃ text, Spells text a ∧ isPrivateAddress text = true) ∨ Special a) := by
  by_cases hshort : ShortStart (a.group 0)
  · refine ⟨.inl ?_, .inl (exists_private_of_shortStart hshort)⟩
    unfold ShortStart at hshort
    omega
  by_cases htranslated : a.group 0 = 0x64 ∧ a.group 1 = 0xff9b
  · obtain ⟨h₀, h₁⟩ := htranslated
    refine ⟨.inl (by omega), .inl ?_⟩
    refine isPrivateAddress_of_prefix (i := 2) (j := 4) "64:ff9b:" (by decide) (by decide) (by omega)
      (a.group_lt 1) (by decide) ?_
    rw [h₀, h₁]
    exact ⟨[], by decide⟩
  by_cases hreserved : a.group 0 = 0x2001 ∧ (a.group 1 = 2 ∨ a.group 1 = 0xdb8)
  · obtain ⟨h₀, h₁⟩ := hreserved
    refine ⟨.inr ⟨h₀, by omega⟩, .inl ?_⟩
    rcases h₁ with h₁ | h₁
    · refine isPrivateAddress_of_prefix (i := 4) (j := 1) "2001:2:" (by decide) (by decide)
        (a.group_lt 0) (by omega) (by decide) ?_
      rw [h₀, h₁]
      exact ⟨[], by decide⟩
    · refine isPrivateAddress_of_prefix (i := 4) (j := 3) "2001:db8:" (by decide) (by decide)
        (a.group_lt 0) (by omega) (by decide) ?_
      rw [h₀, h₁]
      exact ⟨[], by decide⟩
  by_cases hembedded : a.groups.take 5 = [0, 0, 0, 0, 0] ∧ (a.group 5 = 0 ∨ a.group 5 = 0xffff) ∧
      ipv4Private a.embedded = true
  · obtain ⟨htake, hfive, hprivate⟩ := hembedded
    have hsix := take_six htake
    refine ⟨.inl ?_, .inr ?_⟩
    · have hzero : a.group 0 = 0 := by
        have hhead := congrArg List.head? htake
        rw [groups_eq a] at hhead
        exact Option.some.inj hhead
      omega
    · rcases hfive with h₅ | h₅
      · exact .compatible (by rw [hsix, h₅]) hprivate
      · exact .mapped (by rw [hsix, h₅]) hprivate
  · exact absurd ⟨hshort, htranslated, hreserved, fun htake hfive =>
      Bool.eq_false_iff.mpr fun hprivate => hembedded ⟨htake, hfive, hprivate⟩⟩ h

/-! ### The verdict -/

/-- What the classifier tests of a spelling: it has no zone and no capitals. -/
theorem isPrivateAddress_of_spells {text : List Char} (h : Spells text a) :
    ∃ normalized, parseGroups normalized = some a.groups ∧ normalized.map Char.toLower = normalized ∧
      isPrivateAddress text = (match mappedIpv4 normalized with
        | some mapped => ipv4Private mapped
        | none => beginsPrivate normalized) := by
  obtain ⟨hsix, hparse⟩ := h
  unfold parseIpv6 at hparse
  split_ifs at hparse
  refine ⟨(text.map Char.toLower).takeWhile (· ≠ '%'), ?_, ?_, ?_⟩
  · rw [takeWhile_toLower (by decide), parseGroups_toLower, hparse]
  · rw [← takeWhile_toLower (by decide), List.map_map]
    congr 2
    exact funext toLower_toLower
  · rw [isPrivateAddress, if_neg (by simp [hsix]), if_pos hsix]
    rfl

/-- **The verdict on a settled address** is the same for all its spellings. -/
theorem isPrivateAddress_iff {text : List Char} (ha : Settled a) (h : Spells text a) :
    isPrivateAddress text = true ↔ WideStart (a.group 0) := by
  obtain ⟨normalized, hparse, hlower, heq⟩ := isPrivateAddress_of_spells h
  rw [heq]
  cases hmapped : mappedIpv4 normalized with
  | some mapped =>
    obtain ⟨htake, hprivate⟩ := mappedIpv4_eq_some hparse hlower hmapped
    have hpublic := ha.embedded (take_five htake).1 (.inr (take_five htake).2)
    have hzero : a.group 0 = 0 := by
      have hhead := congrArg List.head? htake
      rw [groups_eq a] at hhead
      exact Option.some.inj hhead
    simp [hprivate, hpublic, hzero, WideStart]
  | none =>
    constructor
    · exact fun hbegins => (wideStart_of_beginsPrivate hparse hbegins).resolve_right (not_not_intro ha)
    · exact fun hwide => (beginsPrivate_of_wideStart hparse hlower hwide).1

/-- A special address that is settled shows it in its first group. -/
theorem wideStart_of_special (ha : Settled a) (h : Special a) : WideStart (a.group 0) := by
  have hlt := a.group_lt 0
  have hzeros : ∀ g, (g = 0 ∨ g = 0xffff) → a.groups.take 6 = [0, 0, 0, 0, 0, g] →
      ipv4Private a.embedded = true → False := by
    intro g hg htake hprivate
    obtain ⟨hfirst, rfl⟩ := take_five htake
    have hpublic := ha.embedded hfirst hg
    rw [hprivate] at hpublic
    cases hpublic
  unfold WideStart
  cases h with
  | unspecified h => exact absurd ha (not_settled_of_zero h (by decide))
  | loopback h => exact absurd ha (not_settled_of_zero h (by decide))
  | uniqueLocal h => omega
  | linkLocal h => omega
  | multicast h => omega
  | documentation h =>
    rw [groups_eq a] at h
    obtain ⟨h₀, h₁, -⟩ : a.group 0 = 0x2001 ∧ a.group 1 = 0xdb8 ∧ True := by simpa using h
    exact absurd ⟨h₀, .inr h₁⟩ ha.reserved
  | nat64 h =>
    rw [groups_eq a] at h
    simp only [List.take_succ_cons, List.cons.injEq] at h
    exact absurd ⟨h.1, h.2.1⟩ ha.translated
  | mapped h hprivate => exact (hzeros 0xffff (.inr rfl) h hprivate).elim
  | compatible h hprivate => exact (hzeros 0 (.inl rfl) h hprivate).elim

theorem judged_iff : Judged a ↔ Settled a := by
  constructor
  · intro hjudged
    by_contra ha
    obtain ⟨hstart, hother⟩ := exists_private_or_special ha
    obtain ⟨hfull, hpublic⟩ := isPrivateAddress_full hstart
    rcases hother with ⟨text, hspells, hprivate⟩ | hspecial
    · obtain ⟨answer, hanswer⟩ := hjudged.alike
      have := (hanswer _ hfull).symm.trans hpublic
      rw [hanswer text hspells, this] at hprivate
      cases hprivate
    · have := hjudged.special hspecial _ hfull
      rw [hpublic] at this
      cases this
  · intro ha
    constructor
    · by_cases hwide : WideStart (a.group 0)
      · exact ⟨true, fun text h => (isPrivateAddress_iff ha h).mpr hwide⟩
      · exact ⟨false, fun text h => Bool.eq_false_iff.mpr fun e => hwide ((isPrivateAddress_iff ha h).mp e)⟩
    · exact fun hspecial text h => (isPrivateAddress_iff ha h).mpr (wideStart_of_special ha hspecial)

/-- A special address that a host name resolves to passes only where it is not settled. -/
theorem not_settled_of_resolution {label : String} {addresses : List (List Char)} {text : List Char}
    (h : assertPublicEndpointResolution label false (some addresses) = .ok ()) (hmem : text ∈ addresses)
    (hspells : Spells text a) (hspecial : Special a) : ¬Settled a := by
  intro ha
  have hprivate := (isPrivateAddress_iff ha hspells).mpr (wideStart_of_special ha hspecial)
  have hany : addresses.any isPrivateAddress = true := List.any_eq_true.mpr ⟨text, hmem, hprivate⟩
  simp [assertPublicEndpointResolution, hany] at h

/-- **Private addresses.** An IPv4 text is private exactly in the listed blocks. The spellings of an IPv6 address get
one answer, which is "private" if the address is special, if and only if it is settled. -/
theorem isPrivateAddress_settled (a : Ipv6Address) :
    (∀ text octets, parseIpv4 text = some octets → (isPrivateAddress text = true ↔ Listed octets)) ∧
      (Judged a ↔ Settled a) :=
  ⟨fun _ _ h => isPrivateAddress_ipv4 h, judged_iff⟩

/-- A mapped loopback address has a spelling that is private and one that is not. -/
theorem mapped_loopback_told_apart :
    ∃ a : Ipv6Address, Spells "::ffff:7f00:1".toList a ∧ Spells "0:0:0:0:0:ffff:7f00:1".toList a ∧
      isPrivateAddress "::ffff:7f00:1".toList = true ∧ isPrivateAddress "0:0:0:0:0:ffff:7f00:1".toList = false ∧
      Special a ∧ ¬Judged a := by
  let a : Ipv6Address := ⟨[0, 0, 0, 0, 0, 0xffff, 0x7f00, 1], rfl, by decide⟩
  have hshort : Spells "::ffff:7f00:1".toList a := ⟨by decide, by decide⟩
  have hlong : Spells "0:0:0:0:0:ffff:7f00:1".toList a := ⟨by decide, by decide⟩
  have hspecial : Special a := .mapped rfl (by decide)
  have hpublic : isPrivateAddress "0:0:0:0:0:ffff:7f00:1".toList = false := by decide
  refine ⟨a, hshort, hlong, by decide, hpublic, hspecial, fun h => ?_⟩
  rw [h.special hspecial _ hlong] at hpublic
  cases hpublic

end Forge.Gateway

import Asterism.Json

/-!
# Plaintext to the Control Plane

A Node speaks plaintext only to a loopback host. The host is cut out of the URL by hand: what comes
before the last colon of the authority is taken for it. That is the host of the URL unless the URL
has a user information part. Then it is the name of the user, and a name such as `localhost` lets
any host through.
-/

namespace Asterism.ControlUrl

/-! ## Addresses -/

/-- A number in the digits of a base, of at most so many digits. -/
def parseDigits (base limit : ℕ) (digit : Char → Option ℕ) (chars : List Char) : Option ℕ :=
  if chars = [] ∨ limit < chars.length then none
  else (chars.mapM digit).map fun digits => digits.foldl (fun value d => base * value + d) 0

def decimalDigit (c : Char) : Option ℕ := if c.isDigit then some (c.toNat - '0'.toNat) else none

def hexDigit (c : Char) : Option ℕ :=
  if c.isDigit then some (c.toNat - '0'.toNat)
  else if 'a' ≤ c ∧ c ≤ 'f' then some (c.toNat - 'a'.toNat + 10)
  else if 'A' ≤ c ∧ c ≤ 'F' then some (c.toNat - 'A'.toNat + 10)
  else none

/-- A part of an IPv4 address: a byte in decimal, without leading zeros. -/
def parseOctet (chars : List Char) : Option ℕ :=
  if chars.head? = some '0' ∧ chars ≠ ['0'] then none
  else (parseDigits 10 3 decimalDigit chars).filter fun n => n < 256

def parseIpv4 (chars : List Char) : Option (List ℕ) :=
  ((chars.splitOn '.').mapM parseOctet).filter fun octets => octets.length = 4

/-- The groups of a part of an IPv6 address. The last two may be written as an IPv4 address. -/
def parseGroups (embedded : Bool) : List (List Char) → Option (List ℕ)
  | [] => some []
  | [last] =>
    if embedded = true ∧ '.' ∈ last then
      (parseIpv4 last).map fun octets =>
        [256 * octets.getD 0 0 + octets.getD 1 0, 256 * octets.getD 2 0 + octets.getD 3 0]
    else (parseDigits 16 4 hexDigit last).map fun group => [group]
  | group :: groups => do
    let first ← parseDigits 16 4 hexDigit group
    let rest ← parseGroups embedded groups
    return first :: rest

def groups (chars : List Char) : List (List Char) := if chars = [] then [] else chars.splitOn ':'

/-- An IPv6 address. Two colons stand for one or more groups of zeros. -/
def parseIpv6 (chars : List Char) : Option (List ℕ) :=
  match Text.splitOnce "::".toList chars with
  | none => (parseGroups true (groups chars)).filter fun address => address.length = 8
  | some (before, after) => do
    let head ← parseGroups false (groups before)
    let tail ← parseGroups true (groups after)
    if head.length + tail.length ≤ 7 then
      some (head ++ List.replicate (8 - head.length - tail.length) 0 ++ tail)
    else none

/-- The character can occur in an address. -/
def isAddressChar (c : Char) : Bool := (hexDigit c).isSome || c == '.' || c == ':'

/-- `is_loopback` of the `IpAddr` that is read. Other characters than those of addresses are refused
by either parser. -/
def isLoopbackAddress (chars : List Char) : Bool :=
  chars.all isAddressChar &&
    match parseIpv4 chars with
    | some octets => octets.head? = some 127
    | none => parseIpv6 chars = some [0, 0, 0, 0, 0, 0, 0, 1]

/-! ## The check -/

/-- `is_loopback_host`: whether a host is loopback, the only place plaintext is ever tolerated. -/
def isLoopbackHost (host : List Char) : Bool :=
  let host := (host.dropWhile fun c => c = '[').rdropWhile fun c => c = ']'
  host.map Text.toAsciiLower = "localhost".toList || isLoopbackAddress host

/-- The text before and after the last colon (`rfind(':')`). -/
def splitAtLastColon : List Char → Option (List Char × List Char)
  | [] => none
  | c :: chars =>
    match splitAtLastColon chars with
    | some (before, after) => some (c :: before, after)
    | none => if c = ':' then some ([], chars) else none

/-- `split_url`, on the authority. -/
def hostOf (authority : List Char) : List Char :=
  match splitAtLastColon authority with
  | some (before, after) => if ']' ∈ after then authority else before
  | none => authority

/-- `split_url`: split a URL into scheme and host. -/
def splitUrl (url : String) : Except String (String × List Char) :=
  match Text.splitOnce "://".toList url.toList with
  | none => .error "Control Plane URL must include a scheme"
  | some (scheme, rest) =>
    let host := hostOf (rest.takeWhile fun c => c ≠ '/' ∧ c ≠ '?' ∧ c ≠ '#')
    if host = [] then .error "Control Plane URL must include a host"
    else .ok (String.ofList (scheme.map Text.toAsciiLower), host)

/-- `validate_control_plane_url`: enforce transport security. -/
def validateControlPlaneUrl (url : String) (allowPlaintextLoopback : Bool) : Except String Unit :=
  match splitUrl url with
  | .error e => .error e
  | .ok (scheme, host) =>
    if scheme = "https" ∨ scheme = "wss" then .ok ()
    else if scheme = "http" ∨ scheme = "ws" then
      if allowPlaintextLoopback = false then
        .error ("plaintext " ++ scheme ++ ":// is refused; use https:// or wss://. " ++
          "Set development.allow_plaintext_loopback for loopback testing.")
      else if isLoopbackHost host = false then
        .error ("plaintext " ++ scheme ++ ":// is only permitted for loopback hosts, not " ++
          String.ofList host)
      else .ok ()
    else .error ("unsupported Control Plane URL scheme " ++ Text.debug scheme)

/-! ## The URL -/

/-- A character that delimits the parts of a URL. -/
def isDelimiter (c : Char) : Bool := c ∈ ['/', '?', '#', '[', ']', '@']

/-- A host: an address in brackets or a name. -/
inductive Host
  | literal (address : List Char) (plain : ∀ c ∈ address, isDelimiter c = false)
  | name (chars : List Char) (plain : ∀ c ∈ chars, isDelimiter c = false ∧ c ≠ ':')

def Host.text : Host → List Char
  | literal address _ => '[' :: (address ++ [']'])
  | name chars _ => chars

/-- A plaintext URL in its parts, as RFC 3986 separates them. -/
structure PlaintextUrl where
  scheme : List Char
  userinfo : Option (List Char)
  host : Host
  port : Option (List Char)
  /-- The path, the query and the fragment. -/
  rest : List Char
  scheme_plain : scheme.map Text.toAsciiLower = "http".toList ∨
    scheme.map Text.toAsciiLower = "ws".toList
  scheme_chars : ':' ∉ scheme
  userinfo_chars : ∀ chars ∈ userinfo, ∀ c ∈ chars, isDelimiter c = false
  port_chars : ∀ chars ∈ port, ∀ c ∈ chars, c.isDigit = true
  rest_begins : ∀ c ∈ rest.head?, c = '/' ∨ c = '?' ∨ c = '#'

namespace PlaintextUrl

variable (url : PlaintextUrl)

def authority : List Char :=
  (url.userinfo.elim [] fun chars => chars ++ ['@']) ++
    (url.host.text ++ url.port.elim [] fun chars => ':' :: chars)

def text : String := String.ofList (url.scheme ++ ("://".toList ++ (url.authority ++ url.rest)))

/-- `validate_control_plane_url` accepts the URL. -/
def Accepted (allowPlaintextLoopback : Bool) : Prop :=
  validateControlPlaneUrl url.text allowPlaintextLoopback = .ok ()

/-- The name of the user is that of a loopback host, and nothing but a name follows. -/
def Disguised : Prop :=
  url.port = none ∧ (∃ chars plain, url.host = .name chars plain) ∧
    ∃ user password, url.userinfo = some (user ++ ':' :: password) ∧ ':' ∉ password ∧
      isLoopbackHost user = true

end PlaintextUrl

/-! ## What the check sees -/

theorem splitAtLastColon_none {chars : List Char} (h : ':' ∉ chars) :
    splitAtLastColon chars = none := by
  induction chars with
  | nil => rfl
  | cons c chars ih =>
    obtain ⟨hc, hchars⟩ := not_or.mp (mt List.mem_cons.mpr h)
    rw [splitAtLastColon, ih hchars]
    exact if_neg fun heq => hc heq.symm

theorem splitAtLastColon_append (before : List Char) {after : List Char} (h : ':' ∉ after) :
    splitAtLastColon (before ++ ':' :: after) = some (before, after) := by
  induction before with
  | nil =>
    rw [List.nil_append, splitAtLastColon, splitAtLastColon_none h]
    rfl
  | cons c before ih => rw [List.cons_append, splitAtLastColon, ih]

/-- What comes before the last colon is the host, unless a bracket closes after it. -/
theorem hostOf_append (before : List Char) {after : List Char} (h : ':' ∉ after) :
    hostOf (before ++ ':' :: after) =
      if ']' ∈ after then before ++ ':' :: after else before := by
  rw [hostOf, splitAtLastColon_append before h]

theorem hostOf_of_not_mem {authority : List Char} (h : ':' ∉ authority) :
    hostOf authority = authority := by
  rw [hostOf, splitAtLastColon_none h]

theorem exists_last_colon {chars : List Char} (h : ':' ∈ chars) :
    ∃ before after, chars = before ++ ':' :: after ∧ ':' ∉ after := by
  obtain ⟨after, before, hsplit, hafter⟩ :=
    List.eq_append_cons_of_mem (List.mem_reverse.mpr h)
  refine ⟨before.reverse, after.reverse, ?_, fun hmem => hafter (List.mem_reverse.mp hmem)⟩
  rw [← List.reverse_reverse chars, hsplit, List.reverse_append, List.reverse_cons,
    List.append_assoc, List.singleton_append]

theorem hostOf_bracket (chars : List Char) : hostOf (chars ++ [']']) = chars ++ [']'] := by
  by_cases hcolon : ':' ∈ chars
  · obtain ⟨before, after, rfl, hafter⟩ := exists_last_colon hcolon
    have hlast : ':' ∉ after ++ [']'] := by simpa using hafter
    rw [List.append_assoc, List.cons_append, hostOf_append before hlast, if_pos (by simp)]
  · exact hostOf_of_not_mem (by simpa using hcolon)

theorem mem_dropWhile {p : Char → Bool} {c : Char} {chars : List Char} (h : c ∈ chars)
    (hc : p c = false) : c ∈ chars.dropWhile p := by
  rw [← List.takeWhile_append_dropWhile (p := p) (l := chars)] at h
  rcases List.mem_append.mp h with htaken | hdropped
  · rw [List.mem_takeWhile_imp htaken] at hc
    cases hc
  · exact hdropped

theorem isLoopbackHost_of_mem {host : List Char} (h : '@' ∈ host) :
    isLoopbackHost host = false := by
  have hstart := mem_dropWhile (p := fun c => c = '[') h (by decide)
  have hend : '@' ∈ (host.dropWhile fun c => c = '[').rdropWhile fun c => c = ']' :=
    List.mem_reverse.mpr (mem_dropWhile (List.mem_reverse.mpr hstart) (by decide))
  have hname : ((host.dropWhile fun c => c = '[').rdropWhile fun c => c = ']').map
      Text.toAsciiLower ≠ "localhost".toList := by
    intro heq
    have hmem := List.mem_map_of_mem (f := Text.toAsciiLower) hend
    rw [heq] at hmem
    exact absurd hmem (by decide)
  have haddress : ((host.dropWhile fun c => c = '[').rdropWhile fun c => c = ']').all
      isAddressChar = false :=
    List.all_eq_false.mpr ⟨'@', hend, by decide⟩
  simp only [isLoopbackHost, isLoopbackAddress, hname, decide_false, haddress, Bool.false_and,
    Bool.or_false]

theorem splitOnce_separator {scheme : List Char} (h : ':' ∉ scheme) (rest : List Char) :
    Text.splitOnce "://".toList (scheme ++ ("://".toList ++ rest)) = some (scheme, rest) := by
  induction scheme with
  | nil => rfl
  | cons c scheme ih =>
    obtain ⟨hc, hscheme⟩ := not_or.mp (mt List.mem_cons.mpr h)
    have hfirst : "://".toList.isPrefixOf (c :: (scheme ++ ("://".toList ++ rest))) = false := by
      change ((':' == c) && _) = false
      rw [beq_false_of_ne hc, Bool.false_and]
    rw [List.cons_append, Text.splitOnce, hfirst, if_neg Bool.false_ne_true, ih hscheme]
    rfl

namespace PlaintextUrl

variable (url : PlaintextUrl)

theorem port_plain {chars : List Char} (h : url.port = some chars) :
    ':' ∉ chars ∧ ']' ∉ chars :=
  ⟨fun hmem => absurd (url.port_chars chars h _ hmem) (by decide),
    fun hmem => absurd (url.port_chars chars h _ hmem) (by decide)⟩

theorem takeWhile_authority :
    ((url.authority ++ url.rest).takeWhile fun c => c ≠ '/' ∧ c ≠ '?' ∧ c ≠ '#') =
      url.authority := by
  have hplain : ∀ c, isDelimiter c = false → c ≠ '/' ∧ c ≠ '?' ∧ c ≠ '#' := by
    intro c hc
    refine ⟨?_, ?_, ?_⟩ <;>
    · rintro rfl
      cases hc
  have hall : ∀ c ∈ url.authority, c ≠ '/' ∧ c ≠ '?' ∧ c ≠ '#' := by
    intro c hc
    rcases List.mem_append.mp hc with huser | hc
    · cases huserinfo : url.userinfo with
      | none =>
        rw [huserinfo] at huser
        cases huser
      | some chars =>
        rw [huserinfo] at huser
        rcases List.mem_append.mp huser with hchars | hat
        · exact hplain c (url.userinfo_chars chars huserinfo c hchars)
        · rw [List.mem_singleton.mp hat]
          decide
    · rcases List.mem_append.mp hc with hhost | hport
      · cases hkind : url.host with
        | literal address plain =>
          rw [hkind] at hhost
          rcases List.mem_cons.mp hhost with rfl | hhost
          · decide
          · rcases List.mem_append.mp hhost with haddress | hclose
            · exact hplain c (plain c haddress)
            · rw [List.mem_singleton.mp hclose]
              decide
        | name chars plain =>
          rw [hkind] at hhost
          exact hplain c (plain c hhost).1
      · cases hkind : url.port with
        | none =>
          rw [hkind] at hport
          cases hport
        | some digits =>
          rw [hkind] at hport
          rcases List.mem_cons.mp hport with rfl | hdigit
          · decide
          · have hdigit := url.port_chars digits hkind c hdigit
            refine ⟨?_, ?_, ?_⟩ <;>
            · rintro rfl
              cases hdigit
  rw [List.takeWhile_append_of_pos fun c hc => decide_eq_true (hall c hc)]
  cases hrest : url.rest with
  | nil => exact List.append_nil _
  | cons c rest =>
    have hends := url.rest_begins c (by rw [hrest]; rfl)
    rw [List.takeWhile_cons_of_neg, List.append_nil]
    rcases hends with rfl | rfl | rfl <;> decide

/-- A plaintext URL is accepted if plaintext is allowed and the host that is cut out is loopback. -/
theorem accepted_iff (allow : Bool) :
    url.Accepted allow ↔ allow = true ∧ isLoopbackHost (hostOf url.authority) = true := by
  have hscheme : String.ofList (url.scheme.map Text.toAsciiLower) = "http" ∨
      String.ofList (url.scheme.map Text.toAsciiLower) = "ws" := by
    rcases url.scheme_plain with h | h
    · exact .inl (by rw [h]; rfl)
    · exact .inr (by rw [h]; rfl)
  generalize hname : String.ofList (url.scheme.map Text.toAsciiLower) = scheme at hscheme
  have hother : ¬ (scheme = "https" ∨ scheme = "wss") := by
    rcases hscheme with rfl | rfl <;> decide
  have hsplit : splitUrl url.text = if hostOf url.authority = [] then
      .error "Control Plane URL must include a host" else .ok (scheme, hostOf url.authority) := by
    have hchars : url.text.toList =
        url.scheme ++ ("://".toList ++ (url.authority ++ url.rest)) := String.toList_ofList
    rw [splitUrl, hchars, splitOnce_separator url.scheme_chars]
    simp only [url.takeWhile_authority, hname]
  rw [Accepted, validateControlPlaneUrl, hsplit]
  by_cases hempty : hostOf url.authority = []
  · rw [if_pos hempty, hempty]
    refine ⟨fun h => ?_, fun h => absurd h.2 (by decide)⟩
    cases h
  · rw [if_neg hempty]
    simp only [if_neg hother, if_pos hscheme]
    cases allow with
    | false => simp
    | true => cases isLoopbackHost (hostOf url.authority) <;> simp

theorem hostOf_authority (h : url.userinfo = none) : hostOf url.authority = url.host.text := by
  rw [authority, h, Option.elim_none, List.nil_append]
  cases hport : url.port with
  | some digits =>
    obtain ⟨hcolon, hbracket⟩ := url.port_plain hport
    rw [Option.elim_some, hostOf_append _ hcolon, if_neg hbracket]
  | none =>
    rw [Option.elim_none, List.append_nil]
    cases url.host with
    | name chars plain => exact hostOf_of_not_mem fun hmem => (plain _ hmem).2 rfl
    | literal address plain => exact hostOf_bracket ('[' :: address)

/-- With a user name and a password before a name, the user name is cut out. -/
theorem hostOf_authority_user {user password chars : List Char}
    {plain : ∀ c ∈ chars, isDelimiter c = false ∧ c ≠ ':'} (hport : url.port = none)
    (hhost : url.host = .name chars plain)
    (huserinfo : url.userinfo = some (user ++ ':' :: password)) (hpassword : ':' ∉ password) :
    hostOf url.authority = user := by
  have hauthority : url.authority = user ++ ':' :: (password ++ '@' :: chars) := by
    rw [authority, hport, hhost, huserinfo]
    simp [Host.text]
  have hcolon : ':' ∉ password ++ '@' :: chars := by
    have hchars : ':' ∉ chars := fun hmem => (plain _ hmem).2 rfl
    simp [hpassword, hchars]
  have hbracket : ']' ∉ password ++ '@' :: chars := by
    have hchars : ']' ∉ chars := fun hmem => absurd (plain _ hmem).1 (by decide)
    have hclosed : ']' ∉ password := fun hmem => absurd (url.userinfo_chars _ huserinfo _
      (List.mem_append_right _ (List.mem_cons_of_mem _ hmem))) (by decide)
    simp [hclosed, hchars]
  rw [hauthority, hostOf_append user hcolon, if_neg hbracket]

/-- With user information the host that is cut out has an at sign, unless a password and then a name
without a port follow the user. -/
theorem mem_hostOf_or {info : List Char} (huserinfo : url.userinfo = some info) :
    '@' ∈ hostOf url.authority ∨ url.port = none ∧ (∃ chars plain, url.host = .name chars plain) ∧
      ':' ∈ info := by
  rw [authority, huserinfo, Option.elim_some]
  cases hport : url.port with
  | some digits =>
    obtain ⟨hcolon, hbracket⟩ := url.port_plain hport
    rw [Option.elim_some, ← List.append_assoc, hostOf_append _ hcolon, if_neg hbracket]
    exact .inl (by simp)
  | none =>
    rw [Option.elim_none, List.append_nil]
    cases url.host with
    | literal address plain =>
      have hhost := hostOf_bracket (info ++ ['@'] ++ '[' :: address)
      rw [List.append_assoc _ ('[' :: address)] at hhost
      exact .inl (hhost.symm ▸ by simp)
    | name chars plain =>
      by_cases hcolon : ':' ∈ info
      · exact .inr ⟨rfl, ⟨chars, plain, rfl⟩, hcolon⟩
      · have hchars : ':' ∉ chars := fun hmem => (plain _ hmem).2 rfl
        rw [hostOf_of_not_mem (by simp [Host.text, hcolon, hchars])]
        exact .inl (by simp)

/-- The host of a plaintext URL that is accepted is loopback, unless plaintext is allowed, the name
of the user is that of a loopback host, and another host follows. -/
theorem accepted_loopback_iff (allow : Bool) :
    (url.Accepted allow → isLoopbackHost url.host.text = true) ↔
      allow = false ∨ ¬ url.Disguised ∨ isLoopbackHost url.host.text = true := by
  rw [accepted_iff]
  constructor
  · intro h
    cases allow with
    | false => exact .inl rfl
    | true =>
      by_cases hdisguised : url.Disguised
      · obtain ⟨hport, ⟨chars, plain, hname⟩, user, password, huserinfo, hpassword, hloopback⟩ :=
          hdisguised
        refine .inr (.inr (h ⟨rfl, ?_⟩))
        rwa [url.hostOf_authority_user hport hname huserinfo hpassword]
      · exact .inr (.inl hdisguised)
  · rintro (hallow | hplain | hloopback) ⟨hallowed, hhost⟩
    · rw [hallow] at hallowed
      cases hallowed
    · cases huserinfo : url.userinfo with
      | none => rwa [url.hostOf_authority huserinfo] at hhost
      | some info =>
        rcases url.mem_hostOf_or huserinfo with hat | ⟨hport, ⟨chars, plain, hname⟩, hcolon⟩
        · rw [isLoopbackHost_of_mem hat] at hhost
          cases hhost
        · obtain ⟨user, password, rfl, hpassword⟩ := exists_last_colon hcolon
          rw [url.hostOf_authority_user hport hname huserinfo hpassword] at hhost
          exact absurd ⟨hport, ⟨chars, plain, hname⟩, user, password, huserinfo, hpassword, hhost⟩
            hplain
    · exact hloopback

end PlaintextUrl

def remoteName : Host :=
  .name "evil.com".toList fun c hc => by
    have hall : ("evil.com".toList.all fun c => !isDelimiter c && c != ':') = true := by decide
    simpa using List.all_eq_true.mp hall c hc

/-- A URL of the remote host, with a user who is named like a loopback host. -/
def disguisedUrl : PlaintextUrl where
  scheme := "http".toList
  userinfo := some "localhost:pw".toList
  host := remoteName
  port := none
  rest := []
  scheme_plain := .inl rfl
  scheme_chars := by decide
  userinfo_chars := by
    rintro chars ⟨⟩ c hc
    have hall : ("localhost:pw".toList.all fun c => !isDelimiter c) = true := by decide
    simpa using List.all_eq_true.mp hall c hc
  port_chars := by simp
  rest_begins := by simp

/-- The URL is accepted, and its host is not loopback. -/
theorem disguisedUrl_accepted :
    disguisedUrl.text = "http://localhost:pw@evil.com" ∧
      disguisedUrl.Accepted true ∧ isLoopbackHost disguisedUrl.host.text = false := by
  refine ⟨by decide +kernel, (disguisedUrl.accepted_iff true).mpr ⟨rfl, ?_⟩, ?_⟩
  · decide +kernel
  · decide +kernel

end Asterism.ControlUrl

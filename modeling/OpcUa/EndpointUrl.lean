import OpcUa.EndpointUrlCore
import OpcUa.NumericRange

/-!
Which texts `UA_parseEndpointUrl` takes. It stays within every text. It takes the URLs of endpoints
and gives their parts, and it also takes a port that is too great if what is left of it in a word of
32 bits is not.
-/

namespace OpcUa

open LittleEndian StatusCode DecimalText List

variable {front rest host : List Byte} {url : UrlText}
variable {digits literal : List Byte} {str : UaString}

theorem exists_scan (stop : Byte → Bool) (text : List Byte) :
    ∃ part rest, text = part ++ rest ∧ (∀ byte ∈ part, stop byte = false) ∧
      ∀ byte ∈ rest.head?, stop byte = true := by
  induction text with
  | nil => exact ⟨[], [], rfl, by simp, by simp⟩
  | cons byte text ih =>
    cases stops : stop byte with
    | true => exact ⟨[], byte :: text, rfl, by simp, by simpa using stops⟩
    | false =>
      obtain ⟨part, rest, rfl, free, ends⟩ := ih
      refine ⟨byte :: part, rest, rfl, ?_, ends⟩
      intro other member
      rcases mem_cons.mp member with rfl | later
      · exact stops
      · exact free other later

theorem scanFrom_part (stop : Byte → Bool) (before part rest : List Byte)
    (free : ∀ byte ∈ part, stop byte = false) (ends : ∀ byte ∈ rest.head?, stop byte = true) :
    scanFrom stop (before ++ (part ++ rest)) (part ++ rest).length before.length =
      some (before.length + part.length) := by
  induction part generalizing before with
  | nil =>
    cases rest with
    | nil => rfl
    | cons byte rest =>
      have here : (before ++ ([] ++ byte :: rest))[before.length]? = some byte := by simp
      rw [nil_append, length_cons, scanFrom, ← nil_append (byte :: rest), here]
      simp [ends byte (by simp)]
  | cons byte part ih =>
    have here : (before ++ (byte :: part ++ rest))[before.length]? = some byte := by simp
    have later := ih (before ++ [byte]) fun other member =>
      free other (mem_cons_of_mem _ member)
    have place : (before ++ [byte]).length = before.length + 1 := by simp
    rw [append_assoc, place] at later
    have whole : before ++ (byte :: part ++ rest) = before ++ ([byte] ++ (part ++ rest)) := rfl
    rw [cons_append, length_cons, scanFrom, ← cons_append, here]
    simp only [Option.bind_eq_bind, Option.bind_some, free byte (mem_cons_self ..),
      Bool.false_eq_true, if_false]
    rw [whole, later, length_cons]
    congr 1
    omega

theorem bytesFrom_behind (front rest : List Byte) :
    bytesFrom (front ++ rest) front.length = some rest := by
  rw [bytesFrom, if_pos (by rw [length_append]; omega), drop_left]

theorem get_behind (front rest : List Byte) : (front ++ rest)[front.length]? = rest.head? := by
  rw [getElem?_append_right (Nat.le_refl _), Nat.sub_self, head?_eq_getElem?]

def EndpointUrl.withPath (out : EndpointUrl) : Option (List Byte) → EndpointUrl
  | none => out
  | some [] => out
  | some (first :: path) => { out with path := withoutSlash (first :: path) }

theorem parseUrlPath_path (front path : List Byte) (out : EndpointUrl) :
    parseUrlPath (front ++ 47 :: path) front.length out =
      some (good, out.withPath (some path)) := by
  have behind : front ++ 47 :: path = (front ++ [47]) ++ path := by simp
  rw [parseUrlPath, get_behind]
  simp only [head?_cons, Option.bind_eq_bind, Option.bind_some, ne_eq, not_true_eq_false,
    if_false, length_append, length_cons]
  cases path with
  | nil => simp [EndpointUrl.withPath]
  | cons first path =>
    have more : front.length + 1 ≠ front.length + ((first :: path).length + 1) := by
      simp
    have last : (front ++ 47 :: first :: path)[front.length + ((first :: path).length + 1) - 1]? =
        (first :: path).getLast? := by
      rw [getLast?_eq_getElem?]
      simp
    have place : front.length + 1 = (front ++ [47]).length := by simp
    rw [if_neg more, last, place, behind, bytesFrom_behind]
    cases found : (first :: path).getLast? with
    | none => simp at found
    | some final =>
      simp only [EndpointUrl.withPath, withoutSlash, found, Option.bind_some, Option.some.injEq]

theorem parseUrlPath_other (some_rest : rest ≠ []) (other : rest.head? ≠ some 47)
    (out : EndpointUrl) :
    parseUrlPath (front ++ rest) front.length out = some (badTcpEndpointUrlInvalid, out) := by
  obtain ⟨first, rest, rfl⟩ := exists_cons_of_ne_nil some_rest
  have distinct : first ≠ 47 := by simpa using other
  rw [parseUrlPath, get_behind]
  exact if_pos distinct

theorem parseUrlPath_ends (front : List Byte) (some_rest : rest ≠ []) (out : EndpointUrl) :
    ∃ status result, parseUrlPath (front ++ rest) front.length out = some (status, result) ∧
      (status = good → ∃ path, rest = 47 :: path) := by
  by_cases slash : rest.head? = some 47
  · obtain ⟨path, rfl⟩ : ∃ path, rest = 47 :: path := by
      obtain ⟨first, rest, rfl⟩ := exists_cons_of_ne_nil some_rest
      exact ⟨rest, by simpa using slash⟩
    exact ⟨_, _, parseUrlPath_path front path out, fun _ => ⟨path, rfl⟩⟩
  · exact ⟨_, _, parseUrlPath_other some_rest slash out, fun taken => absurd taken (by decide)⟩

def EndpointUrl.withPort (out : EndpointUrl) (digits : List Byte) : EndpointUrl :=
  { out with port := BitVec.ofNat 16 (value digits) }

def slashed (path : Option (List Byte)) : List Byte := path.elim [] fun path => 47 :: path

theorem stops_slashed (path : Option (List Byte)) : Stops (slashed path) := by
  cases path with
  | none => simp [Stops, slashed]
  | some path => exact stops_byte (by decide)

theorem parseUrlPort_split (all : ∀ digit ∈ digits, IsDigit digit) (stops : Stops rest)
    (out : EndpointUrl) :
    parseUrlPort (front ++ (digits ++ rest)) front.length out =
      if digits = [] ∨ 65535 < value digits % 2 ^ 32 then some (badTcpEndpointUrlInvalid, out)
      else if rest = [] then some (good, out.withPort digits)
      else if rest.head? = some 47 then
        parseUrlPath (front ++ digits ++ rest) (front ++ digits).length (out.withPort digits)
      else parseUrlPath (front ++ digits ++ rest) (front ++ digits).length out := by
  have read := readNumber_split all stops
  have great : BitVec.ofNat 32 (value digits) > 65535 ↔ 65535 < value digits % 2 ^ 32 := by
    simp [BitVec.lt_def]
  have narrow : (BitVec.ofNat 32 (value digits)).setWidth 16 = BitVec.ofNat 16 (value digits) := by
    apply BitVec.eq_of_toNat_eq
    simp only [BitVec.toNat_setWidth, BitVec.toNat_ofNat]
    omega
  rw [parseUrlPort]
  by_cases nothing : digits ++ rest = []
  · obtain ⟨none_digits, none_rest⟩ := append_eq_nil_iff.mp nothing
    rw [if_pos (by rw [nothing, append_nil]), if_pos (.inl none_digits)]
  have more : front.length ≠ (front ++ (digits ++ rest)).length := by
    have positive := length_pos_iff.mpr nothing
    rw [length_append]
    omega
  rw [if_neg more, bytesFrom_behind]
  simp only [Option.bind_eq_bind, Option.bind_some, read, great, narrow, length_eq_zero_iff]
  split
  · rfl
  have place : front.length + digits.length = (front ++ digits).length := length_append.symm
  have ends : (front ++ digits).length = (front ++ digits ++ rest).length ↔ rest = [] := by
    simp only [length_append, ← length_eq_zero_iff]
    omega
  rw [place, ← append_assoc]
  simp only [ends]
  by_cases none_rest : rest = []
  · rw [if_pos none_rest, if_pos none_rest]
    rfl
  · rw [get_behind]
    obtain ⟨first, rest, rfl⟩ := exists_cons_of_ne_nil none_rest
    simp only [head?_cons, Option.bind_some, Option.some.injEq]
    rfl

theorem parseUrlPort_port (front : List Byte) (numeral : Numeral digits)
    (small : value digits % 2 ^ 32 ≤ 65535) (path : Option (List Byte)) (out : EndpointUrl) :
    parseUrlPort (front ++ (digits ++ slashed path)) front.length out =
      some (good, (out.withPort digits).withPath path) := by
  have taken := not_or.mpr ⟨numeral.nonempty, Nat.not_lt.mpr small⟩
  rw [parseUrlPort_split numeral.digits (stops_slashed path), if_neg taken]
  cases path with
  | none => rfl
  | some path =>
    rw [slashed, Option.elim_some, if_neg (cons_ne_nil 47 path), head?_cons,
      if_pos rfl, parseUrlPath_path]

theorem parseUrlPort_ends (front rest : List Byte) (out : EndpointUrl) :
    ∃ status result, parseUrlPort (front ++ rest) front.length out = some (status, result) ∧
      (status = good → ∃ digits path, Numeral digits ∧ value digits % 2 ^ 32 ≤ 65535 ∧
        rest = digits ++ slashed path) := by
  obtain ⟨digits, rest, rfl, all, stops⟩ := exists_split rest
  by_cases refused : digits = [] ∨ 65535 < value digits % 2 ^ 32
  · rw [parseUrlPort_split all stops, if_pos refused]
    exact ⟨_, _, rfl, fun taken => absurd taken (by decide)⟩
  obtain ⟨some_digits, small⟩ := not_or.mp refused
  have numeral : Numeral digits := ⟨some_digits, all⟩
  by_cases none_rest : rest = []
  · subst none_rest
    have reads := parseUrlPort_port front numeral (Nat.not_lt.mp small) none out
    exact ⟨_, _, reads, fun _ => ⟨digits, none, numeral, Nat.not_lt.mp small, rfl⟩⟩
  rw [parseUrlPort_split all stops, if_neg refused, if_neg none_rest]
  have port (out : EndpointUrl) := parseUrlPath_ends (front ++ digits) none_rest out
  split
  · obtain ⟨status, result, ran, slash⟩ := port (out.withPort digits)
    refine ⟨status, result, ran, fun taken => ?_⟩
    obtain ⟨path, rfl⟩ := slash taken
    exact ⟨digits, some path, numeral, Nat.not_lt.mp small, rfl⟩
  · obtain ⟨status, result, ran, slash⟩ := port out
    refine ⟨status, result, ran, fun taken => ?_⟩
    obtain ⟨path, rfl⟩ := slash taken
    exact ⟨digits, some path, numeral, Nat.not_lt.mp small, rfl⟩

def EndsHost (rest : List Byte) : Prop := ∀ byte ∈ rest.head?, byte = 58 ∨ byte = 47

theorem hostEnd_bracket (ten : front.length = 10) (free : 93 ∉ literal) :
    hostEnd (front ++ (91 :: (literal ++ 93 :: rest))) =
      some (some (10 + (literal.length + 2))) := by
  have bracket : (front ++ (91 :: (literal ++ 93 :: rest)))[10]? = some 91 := by
    rw [← ten, get_behind]
    rfl
  have loop := scanFrom_part (· = 93) front (91 :: literal) (93 :: rest) (by
      intro byte member
      rcases mem_cons.mp member with rfl | inside
      · decide
      · simpa using fun same : byte = 93 => free (same ▸ inside))
    (by simp)
  have left : (front ++ (91 :: (literal ++ 93 :: rest))).length - 10 =
      (91 :: literal ++ 93 :: rest).length := by
    rw [length_append, ten, Nat.add_sub_cancel_left, cons_append]
  rw [ten, cons_append] at loop
  rw [hostEnd, bracket, left]
  simp only [Option.bind_eq_bind, Option.bind_some, if_true]
  rw [cons_append, loop, Option.bind_some, length_cons]
  have more : 10 + (literal.length + 1) ≠ (front ++ (91 :: (literal ++ 93 :: rest))).length := by
    simp only [length_append, length_cons]
    omega
  rw [if_neg more]
  rfl

theorem hostEnd_open (ten : front.length = 10) (free : 93 ∉ literal) :
    hostEnd (front ++ (91 :: literal)) = some none := by
  have bracket : (front ++ (91 :: literal))[10]? = some 91 := by
    rw [← ten, get_behind]
    rfl
  have loop := scanFrom_part (· = 93) front (91 :: literal) [] (by
      intro byte member
      rcases mem_cons.mp member with rfl | inside
      · decide
      · simpa using fun same : byte = 93 => free (same ▸ inside))
    (by simp)
  have left : (front ++ (91 :: literal)).length - 10 = (91 :: literal).length := by
    rw [length_append, ten, Nat.add_sub_cancel_left]
  rw [ten, append_nil] at loop
  rw [hostEnd, bracket, left]
  simp only [Option.bind_eq_bind, Option.bind_some, if_true]
  rw [loop, Option.bind_some, if_pos (by rw [length_append, ten])]

theorem hostEnd_plain (ten : front.length = 10) (colon : 58 ∉ host) (slash : 47 ∉ host)
    (plain : host.head? ≠ some 91) (ends : EndsHost rest) (more : host ++ rest ≠ []) :
    hostEnd (front ++ (host ++ rest)) = some (some (10 + host.length)) := by
  obtain ⟨first, tail, whole⟩ := exists_cons_of_ne_nil more
  have head : (front ++ (host ++ rest))[10]? = some first := by
    rw [← ten, get_behind, whole]
    rfl
  have other : first ≠ 91 := by
    rintro rfl
    cases host with
    | nil =>
      subst whole
      rcases ends 91 (by simp) with same | same <;> exact absurd same (by decide)
    | cons byte host =>
      exact plain (by simp [(List.cons.inj whole).1])
  have loop := scanFrom_part (fun byte => byte = 58 || byte = 47) front host rest (by
      intro byte member
      have distinct : byte ≠ 58 := fun same => colon (same ▸ member)
      have distinct2 : byte ≠ 47 := fun same => slash (same ▸ member)
      simpa using And.intro distinct distinct2)
    (by
      intro byte member
      simpa using ends byte member)
  have left : (front ++ (host ++ rest)).length - 10 = (host ++ rest).length := by
    rw [length_append, ten, Nat.add_sub_cancel_left]
  rw [ten] at loop
  rw [hostEnd, head, left]
  simp only [Option.bind_eq_bind, Option.bind_some, other, if_false]
  rw [loop]
  rfl

def endpointText (host rest : List Byte) : List Byte := urlScheme ++ (host ++ rest)

def parseBehindHost (host rest : List Byte) (out : EndpointUrl) :
    Option (StatusCode × EndpointUrl) :=
  let out := { out with hostname := host }
  if rest = [] then some (good, out)
  else if rest.head? = some 58 then
    parseUrlPort (urlScheme ++ host ++ [58] ++ rest.tail) (urlScheme ++ host ++ [58]).length out
  else parseUrlPath (urlScheme ++ host ++ rest) (urlScheme ++ host).length out

theorem parseEndpointUrl_host (text : str.bytes = endpointText host rest) (more : host ++ rest ≠ [])
    (ends : hostEnd (endpointText host rest) = some (some (10 + host.length))) (out : EndpointUrl) :
    parseEndpointUrl str out = parseBehindHost host rest out := by
  have positive := length_pos_iff.mpr more
  have long : ¬((endpointText host rest).length < 11 ∨
      (endpointText host rest).take 10 ≠ urlScheme) := by
    rw [endpointText, not_or, not_not]
    constructor
    · rw [length_append]
      change ¬10 + _ < 11
      omega
    · change (urlScheme ++ (host ++ rest)).take urlScheme.length = urlScheme
      exact take_left
  have slice : ((endpointText host rest).drop 10).take (10 + host.length - 10) = host := by
    rw [Nat.add_sub_cancel_left]
    change ((urlScheme ++ (host ++ rest)).drop urlScheme.length).take _ = _
    rw [drop_left, take_left]
  have front : endpointText host rest = urlScheme ++ host ++ rest := by
    rw [endpointText, append_assoc]
  have place : 10 + host.length = (urlScheme ++ host).length := by
    rw [length_append]
    rfl
  have last : 10 + host.length = (endpointText host rest).length ↔ rest = [] := by
    rw [front, place, ← length_eq_zero_iff]
    simp only [length_append]
    omega
  rw [parseEndpointUrl, text]
  rw [if_neg long, ends]
  dsimp only [Option.bind_eq_bind, Option.bind_some]
  rw [slice, parseBehindHost]
  simp only [last]
  split
  · rfl
  · rename_i some_rest
    obtain ⟨first, rest, rfl⟩ := exists_cons_of_ne_nil some_rest
    rw [front, place, get_behind, head?_cons]
    dsimp only [Option.bind_some]
    by_cases colon : first = 58
    · subst first
      have behind : urlScheme ++ host ++ [58] ++ rest = urlScheme ++ host ++ 58 :: rest := by simp
      have next : (urlScheme ++ host).length + 1 = (urlScheme ++ host ++ [58]).length := by
        simp only [length_append, length_singleton]
      rw [if_pos rfl, if_pos rfl, tail_cons, behind, next]
    · rw [if_neg colon, if_neg (mt Option.some.inj colon)]

theorem UrlText.text_eq (url : UrlText) :
    url.text = endpointText url.host (url.portText ++ slashed url.path) := rfl

theorem hostEnd_host (formed : HostText host) (ends : EndsHost rest) (more : host ++ rest ≠ []) :
    hostEnd (endpointText host rest) = some (some (10 + host.length)) := by
  rcases formed with ⟨literal, rfl, free⟩ | ⟨colon, slash, plain⟩
  · have whole : endpointText (91 :: (literal ++ [93])) rest =
        urlScheme ++ (91 :: (literal ++ 93 :: rest)) := by
      simp [endpointText]
    rw [whole, hostEnd_bracket rfl free, length_cons, length_append]
    rfl
  · exact hostEnd_plain rfl colon slash plain ends more

theorem UrlText.endsHost (url : UrlText) : EndsHost (url.portText ++ slashed url.path) := by
  obtain ⟨host, port, path⟩ := url
  intro byte member
  cases port with
  | some digits =>
    simp only [portText, Option.elim_some, cons_append, head?_cons,
      Option.mem_def, Option.some.injEq] at member
    exact .inl member.symm
  | none =>
    cases path with
    | none => simp [portText, slashed] at member
    | some path =>
      simp only [portText, Option.elim_none, slashed, Option.elim_some,
        nil_append, head?_cons, Option.mem_def, Option.some.injEq] at member
      exact .inr member.symm

def UrlText.Taken (url : UrlText) : Prop :=
  ∀ digits ∈ url.port, value digits % 2 ^ 32 ≤ 65535

theorem UrlText.WellFormed.more_host (formed : url.WellFormed) :
    url.host ++ (url.portText ++ slashed url.path) ≠ [] := by
  intro nothing
  have more := formed.more
  rw [url.text_eq, endpointText, nothing] at more
  exact absurd more (by decide)

theorem UrlText.parts_eq (url : UrlText) (out : EndpointUrl) :
    url.parts out = (url.port.elim { out with hostname := url.host }
      (EndpointUrl.withPort { out with hostname := url.host })).withPath url.path := by
  obtain ⟨host, port, path⟩ := url
  cases port <;> rcases path with _ | _ | ⟨first, path⟩ <;> rfl

theorem parseEndpointUrl_text (formed : url.WellFormed) (taken : url.Taken)
    (text : str.bytes = url.text) (out : EndpointUrl) :
    parseEndpointUrl str out = some (good, url.parts out) := by
  rw [parseEndpointUrl_host text formed.more_host
    (hostEnd_host formed.host url.endsHost formed.more_host), url.parts_eq, parseBehindHost]
  obtain ⟨host, port, path⟩ := url
  cases port with
  | some digits =>
    exact parseUrlPort_port _ (formed.port digits rfl) (taken digits rfl) path _
  | none =>
    cases path with
    | none => rfl
    | some path =>
      exact parseUrlPath_path _ path _

theorem parseBehindHost_ends (host rest : List Byte) (out : EndpointUrl) :
    ∃ status result, parseBehindHost host rest out = some (status, result) ∧
      (status = good → ∃ url : UrlText, url.host = host ∧ url.Taken ∧
        (∀ digits ∈ url.port, Numeral digits) ∧ rest = url.portText ++ slashed url.path) := by
  rw [parseBehindHost]
  by_cases none_rest : rest = []
  · rw [if_pos none_rest]
    exact ⟨_, _, rfl, fun _ => ⟨⟨host, none, none⟩, rfl, nofun, nofun, none_rest⟩⟩
  obtain ⟨first, rest, rfl⟩ := exists_cons_of_ne_nil none_rest
  by_cases colon : (first :: rest).head? = some 58
  · obtain rfl : first = 58 := by simpa using colon
    obtain ⟨status, result, ran, written⟩ := parseUrlPort_ends (urlScheme ++ host ++ [58]) rest
      { out with hostname := host }
    refine ⟨status, result, ran, fun taken => ?_⟩
    obtain ⟨digits, path, numeral, small, rfl⟩ := written taken
    refine ⟨⟨host, some digits, path⟩, rfl, ?_, ?_, rfl⟩
    · rintro _ ⟨⟩
      exact small
    · rintro _ ⟨⟩
      exact numeral
  · rw [if_neg colon]
    obtain ⟨status, result, ran, written⟩ := parseUrlPath_ends (urlScheme ++ host) none_rest
      { out with hostname := host }
    refine ⟨status, result, ran, fun taken => ?_⟩
    obtain ⟨path, same⟩ := written taken
    exact ⟨⟨host, none, some path⟩, rfl, nofun, nofun, same⟩

theorem exists_host {tail : List Byte} (more : tail ≠ []) :
    (∃ literal, tail = 91 :: literal ∧ 93 ∉ literal) ∨
      ∃ host rest, tail = host ++ rest ∧ HostText host ∧
        hostEnd (endpointText host rest) = some (some (10 + host.length)) := by
  obtain ⟨first, tail, rfl⟩ := exists_cons_of_ne_nil more
  by_cases bracket : first = 91
  · subst bracket
    obtain ⟨literal, rest, rfl, free, closes⟩ := exists_scan (· = 93) tail
    have inside : 93 ∉ literal := by
      intro member
      simpa using free 93 member
    cases rest with
    | nil => exact .inl ⟨literal, by rw [append_nil], inside⟩
    | cons byte rest =>
      obtain rfl : byte = 93 := by simpa using closes byte (by simp)
      have whole : endpointText (91 :: (literal ++ [93])) rest =
          urlScheme ++ (91 :: (literal ++ 93 :: rest)) := by
        simp [endpointText]
      refine .inr ⟨91 :: (literal ++ [93]), rest, by simp, .inl ⟨literal, rfl, inside⟩, ?_⟩
      rw [whole, hostEnd_bracket rfl inside, length_cons, length_append]
      rfl
  · obtain ⟨host, rest, whole, free, ends⟩ :=
      exists_scan (fun byte => byte = 58 || byte = 47) (first :: tail)
    have colon : 58 ∉ host := fun member => by simpa using free 58 member
    have slash : 47 ∉ host := fun member => by simpa using free 47 member
    have plain : host.head? ≠ some 91 := by
      cases host with
      | nil => simp
      | cons byte host =>
        rw [← (List.cons.inj whole).1]
        simpa using bracket
    have behind : EndsHost rest := by
      intro byte member
      simpa using ends byte member
    refine .inr ⟨host, rest, whole, .inr ⟨colon, slash, plain⟩, ?_⟩
    exact hostEnd_plain rfl colon slash plain behind (whole ▸ cons_ne_nil first tail)

theorem parseEndpointUrl_ends (str : UaString) (out : EndpointUrl) :
    ∃ status result, parseEndpointUrl str out = some (status, result) ∧
      (status = good → ∃ url : UrlText, url.WellFormed ∧ url.Taken ∧ str.bytes = url.text) := by
  by_cases start : str.bytes.length < 11 ∨ str.bytes.take 10 ≠ urlScheme
  · rw [parseEndpointUrl]
    rw [if_pos start]
    exact ⟨_, _, rfl, fun taken => absurd taken (by decide)⟩
  obtain ⟨long, scheme⟩ := not_or.mp start
  have split : str.bytes = urlScheme ++ str.bytes.drop 10 := by
    rw [← not_not.mp scheme, take_append_drop]
  have more : str.bytes.drop 10 ≠ [] := by
    intro nothing
    have length := congrArg List.length nothing
    rw [length_drop, length_nil] at length
    omega
  rcases exists_host more with ⟨literal, open_host, free⟩ | ⟨host, rest, whole, formed, ends⟩
  · rw [parseEndpointUrl]
    rw [open_host] at split
    rw [split, hostEnd_open rfl free]
    exact ⟨_, _, rfl, fun taken => absurd taken (by decide)⟩
  · rw [whole] at split more
    rw [parseEndpointUrl_host split more ends]
    obtain ⟨status, result, ran, written⟩ := parseBehindHost_ends host rest out
    refine ⟨status, result, ran, fun taken => ?_⟩
    obtain ⟨url, rfl, small, numerals, rfl⟩ := written taken
    have text : str.bytes = url.text := split
    exact ⟨url, ⟨by rw [← text]; omega, formed, numerals⟩, small, text⟩

theorem UrlText.WellFormed.unique {first second : UrlText} (formed : first.WellFormed)
    (formed2 : second.WellFormed) (same : first.text = second.text) : first = second := by
  have ends := hostEnd_host formed.host first.endsHost formed.more_host
  have ends2 := hostEnd_host formed2.host second.endsHost formed2.more_host
  rw [first.text_eq, second.text_eq] at same
  rw [same, ends2] at ends
  have lengths : first.host.length = second.host.length := by
    injection ends with ends
    injection ends with ends
    omega
  obtain ⟨hosts, rests⟩ := append_inj (append_cancel_left same) lengths
  obtain ⟨host, port, path⟩ := first
  obtain ⟨host2, port2, path2⟩ := second
  obtain rfl : host = host2 := hosts
  have paths {path path2 : Option (List Byte)} (same : slashed path = slashed path2) :
      path = path2 := by
    cases path <;> cases path2 <;> simp_all [slashed]
  have colon {digits : List Byte} {path path2 : Option (List Byte)}
      (same : 58 :: (digits ++ slashed path) = slashed path2) : False := by
    cases path2 with
    | none => cases same
    | some path2 => exact absurd (List.cons.inj same).1 (by decide)
  cases port with
  | none =>
    cases port2 with
    | none =>
      obtain rfl : path = path2 := paths rests
      rfl
    | some digits => exact (colon rests.symm).elim
  | some digits =>
    cases port2 with
    | none => exact (colon rests).elim
    | some digits2 =>
      obtain ⟨rfl, tails⟩ := split_unique (formed.port digits rfl).digits
        (formed2.port digits2 rfl).digits (stops_slashed path) (stops_slashed path2)
        (List.cons.inj rests).2
      obtain rfl : path = path2 := paths tails
      rfl

theorem UrlText.PortFits.taken (fits : url.PortFits) : url.Taken := by
  intro digits member
  have small := fits digits member
  omega

theorem UrlText.Taken.portFits (taken : url.Taken) (exact : ¬url.PortWraps) : url.PortFits := by
  intro digits member
  by_contra great
  exact exact ⟨digits, member, Nat.not_le.mp great, taken digits member⟩

theorem UrlText.PortWraps.taken (wraps : url.PortWraps) : url.Taken := by
  obtain ⟨digits, member, -, small⟩ := wraps
  intro other present
  rwa [← Option.mem_unique member present]

/-- Every text is read within its bounds. It is parsed into the parts of the URL that it is exactly
if it is no URL with a port that is taken although it is too great. -/
theorem parseEndpointUrl_asUrl (str : UaString) (out : EndpointUrl) :
    ∃ status result, parseEndpointUrl str out = some (status, result) ∧
      (ParsedAsUrl str.bytes out status result ↔
        ¬∃ url : UrlText, url.WellFormed ∧ url.PortWraps ∧ str.bytes = url.text) := by
  obtain ⟨status, result, ran, written⟩ := parseEndpointUrl_ends str out
  have reads {url : UrlText} (formed : url.WellFormed) (taken : url.Taken)
      (text : str.bytes = url.text) : status = good ∧ result = url.parts out := by
    have parsed := parseEndpointUrl_text formed taken text out
    rw [ran] at parsed
    exact Prod.mk.inj (Option.some.inj parsed)
  refine ⟨status, result, ran, ?_⟩
  constructor
  · rintro ⟨exact, -⟩ ⟨url, formed, wraps, text⟩
    obtain ⟨other, formed2, fits, text2⟩ := exact.mp (reads formed wraps.taken text).1
    obtain rfl := formed.unique formed2 (text.symm.trans text2)
    obtain ⟨digits, member, great, -⟩ := wraps
    exact absurd (fits digits member) (Nat.not_le.mpr great)
  · intro exact
    constructor
    · constructor
      · intro taken
        obtain ⟨url, formed, small, text⟩ := written taken
        exact ⟨url, formed, small.portFits fun wraps => exact ⟨url, formed, wraps, text⟩, text⟩
      · rintro ⟨url, formed, fits, text⟩
        exact (reads formed fits.taken text).1
    · intro url formed fits text
      exact (reads formed fits.taken text).2

def wrappedUrl : List Byte :=
  urlScheme ++ [104, 58, 52, 50, 57, 52, 57, 54, 55, 51, 55, 54]

def noEndpoint : EndpointUrl := ⟨[], 0, []⟩

theorem wrappedUrl_parses :
    parseEndpointUrl (.alloc wrappedUrl) noEndpoint = some (good, ⟨[104], 80, []⟩) ∧
      ¬ParsedAsUrl wrappedUrl noEndpoint good ⟨[104], 80, []⟩ := by
  refine ⟨by decide, ?_⟩
  rintro ⟨exact, -⟩
  obtain ⟨url, formed, fits, text⟩ := exact.mp rfl
  have written : UrlText.WellFormed
      ⟨[104], some [52, 50, 57, 52, 57, 54, 55, 51, 55, 54], none⟩ := by
    refine ⟨by decide, .inr (by decide), ?_⟩
    rintro _ ⟨⟩
    exact ⟨by decide, by decide⟩
  obtain rfl := written.unique formed text
  exact absurd (fits _ rfl) (by decide)

end OpcUa

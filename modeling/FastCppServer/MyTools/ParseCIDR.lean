import FastCppServer.Lib.Bytes
import FastCppServer.Lib.Scanf
import FastCppServer.MyTools.MyIPTools

/-!
# Reading a CIDR

`ParseCIDR` cuts at the first slash, looks at the digits behind it, converts them with `stoi` and
hands what is in front to `inet_pton`. Two things go wrong. `stoi` throws where the digits are no
`int`, and the exception leaves `ParseCIDR` and its callers. And `inet_pton` reads a C string: what
follows a zero byte in the address is not looked at. For every other text the answer is exact
(`parseCIDR_exact_iff`), and `AddIP` and `DeleteIP` refuse what is no CIDR.
-/

namespace MyTools.MyIPTools

open Scan
open Bytes (ofText)

/-- What `ParseCIDR` answers, and what it leaves in its two references. -/
structure Parsed where
  ok : Bool
  ip : Text
  prefix_len : Int
  deriving DecidableEq

/-- `none` is an exception of `std::stoi`. -/
def parseCIDR (cidr ip : Text) (prefix_len : Int) : Option Parsed :=
  match find 47 cidr with
  | none => some ⟨false, ip, prefix_len⟩
  | some pos =>
    if pos = 0 ∨ pos = cidr.length - 1 then some ⟨false, ip, prefix_len⟩
    else
      let ip := cidr.take pos
      let prefix_str := cidr.drop (pos + 1)
      if ¬ prefix_str.all isDigit then some ⟨false, ip, prefix_len⟩
      else
        match stoi prefix_str with
        | none => none
        | some prefix_len =>
          if prefix_len < 0 ∨ prefix_len > 32 then some ⟨false, ip, prefix_len⟩
          else
            match inet_pton (cString ip) with
            | none => some ⟨false, ip, prefix_len⟩
            | some _ => some ⟨true, ip, prefix_len⟩

/-- `IsValidCIDR`. -/
def isValidCIDR (cidr : Text) : Option Bool := (parseCIDR cidr [] 0).map Parsed.ok

/-! ## Adding and deleting an address -/

/-- `IPErrorCode`. -/
inductive IPErrorCode where
  | kSuccess
  | kInvalidCIDR
  | kInterfaceNotFound
  | kPermissionDenied
  | kSystemError
  | kIPAlreadyExists
  | kIPNotFound
  deriving DecidableEq

/-- `IPResult`. -/
structure IPResult where
  code : IPErrorCode
  message : Text
  deriving DecidableEq

/-- The rtnetlink request, with the address in both of its attributes. -/
structure Request where
  nlmsg_type : Nat
  nlmsg_flags : Nat
  ifa_prefixlen : UInt8
  ifa_index : UInt32
  addr : InAddr

/-- The answer of the kernel: `NLMSG_ERROR` with its code, or another type of message. -/
inductive Reply where
  | error (error : Int)
  | other

/-- The calls of the system. One that fails gives its `errno`. -/
structure System where
  /-- `if_nametoindex`, for the check and for the request behind it. -/
  if_nametoindex : Text → UInt32 × UInt32
  socket : Except Int Unit
  bind : Except Int Unit
  send : Request → Except Int Unit
  recv : Request → Except Int Reply
  strerror : Int → Text

/-- Linux's number of this error. -/
def EPERM : Int := 1

/-- Linux's number of this error. -/
def EACCES : Int := 13

/-- Linux's number of this error. -/
def EEXIST : Int := 17

/-- Linux's number of this error. -/
def EADDRNOTAVAIL : Int := 99

/-- The type of a request for a new address. -/
def RTM_NEWADDR : Nat := 20

/-- The type of a request to take an address away. -/
def RTM_DELADDR : Nat := 21

/-- `NLM_F_REQUEST | NLM_F_ACK`, with `NLM_F_CREATE | NLM_F_EXCL` for an address that is added. -/
def nlmsgFlags (is_add : Bool) : Nat := if is_add then 1 ||| 4 ||| 0x400 ||| 0x200 else 1 ||| 4

/-- How the answer is taken. -/
def readReply (system : System) (interface_name ip : Text) (prefix_len : Int) (is_add : Bool) :
    Reply → IPResult
  | .other => ⟨.kSuccess, ofText "操作完成"⟩
  | .error error =>
    if error = 0 then
      ⟨.kSuccess, ofText "成功" ++ ofText (if is_add then "添加" else "删除") ++ ofText " IP: " ++ ip ++
        ofText "/" ++ showInt prefix_len⟩
    else
      let abs_err := -error
      if abs_err = EEXIST then
        ⟨.kIPAlreadyExists, ofText "该 IP 已存在于网卡 " ++ interface_name⟩
      else if abs_err = EADDRNOTAVAIL then
        ⟨.kIPNotFound, ofText "网卡 " ++ interface_name ++ ofText " 上未找到该 IP"⟩
      else if abs_err = EPERM ∨ abs_err = EACCES then
        ⟨.kPermissionDenied, ofText "无 Root 权限，操作被拒绝"⟩
      else ⟨.kSystemError, ofText "netlink 操作失败: " ++ system.strerror abs_err⟩

/-- `ModifyIP`. -/
def modifyIP (system : System) (interface_name ip : Text) (prefix_len : Int) (is_add : Bool) :
    IPResult :=
  let if_index := (system.if_nametoindex (cString interface_name)).2
  if if_index = 0 then
    ⟨.kInterfaceNotFound, ofText "if_nametoindex 失败: " ++ interface_name⟩
  else
    match inet_pton (cString ip) with
    | none => ⟨.kInvalidCIDR, ofText "inet_pton 解析失败: " ++ ip⟩
    | some addr =>
      match system.socket with
      | .error errno =>
        if errno = EPERM ∨ errno = EACCES then
          ⟨.kPermissionDenied, ofText "无 Root 权限，无法创建 netlink socket"⟩
        else ⟨.kSystemError, ofText "创建 netlink socket 失败: " ++ system.strerror errno⟩
      | .ok () =>
        match system.bind with
        | .error errno =>
          ⟨.kSystemError, ofText "绑定 netlink socket 失败: " ++ system.strerror errno⟩
        | .ok () =>
          let req := {
            nlmsg_type := if is_add then RTM_NEWADDR else RTM_DELADDR
            nlmsg_flags := nlmsgFlags is_add
            ifa_prefixlen := .ofInt prefix_len
            ifa_index := if_index
            addr := addr }
          match system.send req with
          | .error errno =>
            if errno = EPERM ∨ errno = EACCES then
              ⟨.kPermissionDenied, ofText "无 Root 权限，发送 netlink 请求被拒绝"⟩
            else ⟨.kSystemError, ofText "发送 netlink 请求失败: " ++ system.strerror errno⟩
          | .ok () =>
            match system.recv req with
            | .error errno =>
              ⟨.kSystemError, ofText "接收 netlink 响应失败: " ++ system.strerror errno⟩
            | .ok reply => readReply system interface_name ip prefix_len is_add reply

/-- What `AddIP` and `DeleteIP` do, up to the flag they give to `ModifyIP`. -/
def changeIP (is_add : Bool) (system : System) (interface_name cidr : Text) : Option IPResult :=
  (parseCIDR cidr [] 0).map fun parsed =>
    if ¬ parsed.ok then ⟨.kInvalidCIDR, ofText "非法的 CIDR 格式: " ++ cidr⟩
    else if (system.if_nametoindex (cString interface_name)).1 = 0 then
      ⟨.kInterfaceNotFound, ofText "网卡不存在: " ++ interface_name⟩
    else modifyIP system interface_name parsed.ip parsed.prefix_len is_add

/-- `none` is an exception that leaves the call. -/
def addIP : System → Text → Text → Option IPResult := changeIP true

/-- `DeleteIP`. `none` is an exception that leaves the call. -/
def deleteIP : System → Text → Text → Option IPResult := changeIP false

/-! ## What a CIDR is -/

/-- An address that `inet_pton` accepts as it stands, a slash, and digits of at most 32. -/
def IsCIDR (cidr ip : Text) (n : Nat) : Prop :=
  ∃ digits, cidr = ip ++ 47 :: digits ∧ (∃ addr, inet_pton ip = some addr) ∧ digits ≠ [] ∧
    (∀ c ∈ digits, isDigit c = true) ∧ value digits = n ∧ n ≤ 32

/-- The answer to a text is exact: it is given, it is yes for a CIDR and for nothing else, and what
is left in the references then are the parts of the CIDR. -/
structure Exact (cidr : Text) (answer : Option Parsed) : Prop where
  returns : answer ≠ none
  accepts : ∀ ip n, IsCIDR cidr ip n → answer = some ⟨true, ip, (n : Int)⟩
  only : ∀ ip p, answer = some ⟨true, ip, p⟩ → ∃ n : Nat, p = n ∧ IsCIDR cidr ip n

/-- The texts that are misread, by what stands around the first slash: too many digits, or an
address with something behind a zero byte. -/
def Misread (cidr : Text) : Prop :=
  ∃ ip digits, cidr = ip ++ 47 :: digits ∧ 47 ∉ ip ∧ ip ≠ [] ∧ digits ≠ [] ∧
    (∀ c ∈ digits, isDigit c = true) ∧
    (2 ^ 31 ≤ value digits ∨
      0 ∈ ip ∧ (∃ addr, inet_pton (cString ip) = some addr) ∧ value digits ≤ 32)

/-! ## The characters of an address -/

/-- There are digits and points in an address, and nothing else. -/
theorem mem_dotted {addr : InAddr} {c : UInt8} (h : c ∈ dotted addr) :
    c = 46 ∨ isDigit c = true := by
  simp only [dotted, List.intercalate, List.intersperse, List.flatten_cons, List.flatten_nil,
    List.mem_append, List.mem_singleton, List.append_nil] at h
  rcases h with h | h | h | h | h | h | h
  · exact .inr (decimal_digits _ c h)
  · exact .inl h
  · exact .inr (decimal_digits _ c h)
  · exact .inl h
  · exact .inr (decimal_digits _ c h)
  · exact .inl h
  · exact .inr (decimal_digits _ c h)

/-- An accepted address is not empty, and has neither a slash nor a zero byte. -/
theorem address_spec {ip : Text} {addr : InAddr} (h : inet_pton ip = some addr) :
    ip ≠ [] ∧ 47 ∉ ip ∧ 0 ∉ ip := by
  have hno : ∀ c : UInt8, c ≠ 46 → isDigit c = false → c ∉ ip := by
    intro c hdot hdigit hmem
    rw [inet_pton_eq_some.1 h] at hmem
    rcases mem_dotted hmem with hc | hc
    · exact hdot hc
    · exact absurd hc (Bool.eq_false_iff.1 hdigit)
  refine ⟨?_, hno 47 (by decide) rfl, hno 0 (by decide) rfl⟩
  rintro rfl
  have hnil : inet_pton [] = none := by rfl
  cases hnil.symm.trans h

/-- A text without a zero byte is its C string. -/
theorem cString_eq_self {s : Text} (h : 0 ∉ s) : cString s = s := by
  rw [cString, List.takeWhile_eq_self_iff]
  intro c hc
  simp only [decide_eq_true_eq, ne_eq]
  rintro rfl
  exact h hc

/-! ## The cut at the slash -/

/-- A text without a slash is no CIDR. -/
theorem parseCIDR_no_slash {cidr : Text} (h : 47 ∉ cidr) (ip : Text) (p : Int) :
    parseCIDR cidr ip p = some ⟨false, ip, p⟩ := by
  rw [parseCIDR, find_eq_none.2 h]

section
variable {a d : Text} (ha : 47 ∉ a) (ip : Text) (p : Int)
include ha

/-- Nothing in front of the slash, or nothing behind it. -/
theorem parseCIDR_empty (h : a = [] ∨ d = []) :
    parseCIDR (a ++ 47 :: d) ip p = some ⟨false, ip, p⟩ := by
  have hend : a.length = 0 ∨ a.length = (a ++ 47 :: d).length - 1 := by
    rw [List.length_append, List.length_cons]
    rcases h with rfl | rfl
    · exact .inl rfl
    · exact .inr rfl
  rw [parseCIDR, find_append ha]
  dsimp only
  rw [if_pos hend]

/-- What becomes of a text, by what stands around its first slash. -/
theorem parseCIDR_cut (hane : a ≠ []) (hdne : d ≠ []) :
    parseCIDR (a ++ 47 :: d) ip p =
      if ¬ d.all isDigit then some ⟨false, a, p⟩
      else
        match stoi d with
        | none => none
        | some prefix_len =>
          if prefix_len < 0 ∨ prefix_len > 32 then some ⟨false, a, prefix_len⟩
          else
            match inet_pton (cString a) with
            | none => some ⟨false, a, prefix_len⟩
            | some _ => some ⟨true, a, prefix_len⟩ := by
  have hlena : 0 < a.length := List.length_pos_iff.2 hane
  have hlend : 0 < d.length := List.length_pos_iff.2 hdne
  have hend : ¬ (a.length = 0 ∨ a.length = (a ++ 47 :: d).length - 1) := by
    rw [List.length_append, List.length_cons]
    omega
  have hdrop : (a ++ 47 :: d).drop (a.length + 1) = d := by
    rw [List.drop_append, List.drop_eq_nil_of_le (Nat.le_succ _), Nat.add_sub_cancel_left]
    rfl
  rw [parseCIDR, find_append ha]
  dsimp only
  rw [if_neg hend, List.take_left, hdrop]

end

/-- `stoi` of digits. -/
theorem stoi_digits {d : Text} (hne : d ≠ []) (h : ∀ c ∈ d, isDigit c = true) :
    stoi d = if value d < 2 ^ 31 then some (value d : Int) else none := by
  rw [stoi, strtol_digits hne h, Option.filter_some]
  by_cases hlt : value d < 2 ^ 31
  · rw [if_pos hlt, if_pos]
    rw [Bool.and_eq_true, decide_eq_true_eq, decide_eq_true_eq]
    omega
  · rw [if_neg hlt, if_neg]
    rw [Bool.and_eq_true, decide_eq_true_eq, decide_eq_true_eq]
    omega

/-- Digits that are an `int`. -/
theorem parseCIDR_digits {a d : Text} (ha : 47 ∉ a) (hane : a ≠ []) (hdne : d ≠ [])
    (hd : ∀ c ∈ d, isDigit c = true) (hint : value d < 2 ^ 31) (ip : Text) (p : Int) :
    parseCIDR (a ++ 47 :: d) ip p =
      some ⟨decide (value d ≤ 32) && (inet_pton (cString a)).isSome, a, (value d : Int)⟩ := by
  have hall : d.all isDigit = true := List.all_eq_true.2 hd
  rw [parseCIDR_cut ha ip p hane hdne, if_neg (not_not_intro hall), stoi_digits hdne hd,
    if_pos hint]
  dsimp only
  by_cases hle : value d ≤ 32
  · rw [if_neg (by omega), decide_eq_true hle]
    cases inet_pton (cString a) with
    | none => rfl
    | some addr => rfl
  · rw [if_pos (by omega), decide_eq_false hle]
    rfl

/-- A text without digits behind a slash that has something in front is refused. -/
theorem parseCIDR_cases (cidr ip : Text) (p : Int) :
    (∃ ip', parseCIDR cidr ip p = some ⟨false, ip', p⟩) ∨
      ∃ a d, cidr = a ++ 47 :: d ∧ 47 ∉ a ∧ a ≠ [] ∧ d ≠ [] ∧ ∀ c ∈ d, isDigit c = true := by
  by_cases hslash : 47 ∈ cidr
  · obtain ⟨a, d, ha, rfl⟩ := exists_find hslash
    by_cases hempty : a = [] ∨ d = []
    · exact .inl ⟨ip, parseCIDR_empty ha ip p hempty⟩
    · rw [not_or] at hempty
      by_cases hall : d.all isDigit = true
      · exact .inr ⟨a, d, rfl, ha, hempty.1, hempty.2, List.all_eq_true.1 hall⟩
      · refine .inl ⟨a, ?_⟩
        rw [parseCIDR_cut ha ip p hempty.1 hempty.2, if_pos hall]
  · exact .inl ⟨ip, parseCIDR_no_slash hslash ip p⟩

/-! ## Which texts are misread -/

/-- **A CIDR is parsed into its two parts.** -/
theorem IsCIDR.parseCIDR_eq {cidr ip' : Text} {n : Nat} (h : IsCIDR cidr ip' n) (ip : Text)
    (p : Int) : parseCIDR cidr ip p = some ⟨true, ip', (n : Int)⟩ := by
  obtain ⟨d, rfl, ⟨addr, haddr⟩, hdne, hd, rfl, hle⟩ := h
  obtain ⟨hane, hslash, hzero⟩ := address_spec haddr
  rw [parseCIDR_digits hslash hane hdne hd (by omega), cString_eq_self hzero, haddr,
    decide_eq_true hle]
  rfl

/-- **A text is read exactly** unless it is one of those that are misread. -/
theorem parseCIDR_exact_iff (cidr ip : Text) (p : Int) :
    Exact cidr (parseCIDR cidr ip p) ↔ ¬ Misread cidr := by
  constructor
  · rintro hexact ⟨a, d, rfl, ha, hane, hdne, hd, hlarge | ⟨hzero, ⟨addr, haddr⟩, hle⟩⟩
    · -- The exception leaves without an answer.
      refine hexact.returns ?_
      have hall : d.all isDigit = true := List.all_eq_true.2 hd
      rw [parseCIDR_cut ha ip p hane hdne, if_neg (not_not_intro hall), stoi_digits hdne hd,
        if_neg (by omega)]
    · -- The answer is yes, for an address that is none.
      have hyes : parseCIDR (a ++ 47 :: d) ip p = some ⟨true, a, (value d : Int)⟩ := by
        rw [parseCIDR_digits ha hane hdne hd (by omega), haddr, decide_eq_true hle]
        rfl
      obtain ⟨n, -, _, -, ⟨addr', haddr'⟩, -⟩ := hexact.only a _ hyes
      exact (address_spec haddr').2.2 hzero
  · intro hread
    rcases parseCIDR_cases cidr ip p with ⟨ip', hno⟩ | ⟨a, d, rfl, ha, hane, hdne, hd⟩
    · rw [hno]
      refine ⟨Option.some_ne_none _, fun ip'' n h => ?_, fun ip'' p' h => ?_⟩
      · rw [← h.parseCIDR_eq ip p, hno]
      · cases h
    · have hint : value d < 2 ^ 31 := by
        by_contra hlarge
        exact hread ⟨a, d, rfl, ha, hane, hdne, hd, .inl (by omega)⟩
      have heq := parseCIDR_digits ha hane hdne hd hint ip p
      rw [heq]
      refine ⟨Option.some_ne_none _, fun ip'' n h => ?_, fun ip'' p' h => ?_⟩
      · rw [← h.parseCIDR_eq ip p, heq]
      · rw [Option.some.injEq, Parsed.mk.injEq, Bool.and_eq_true, decide_eq_true_eq,
          Option.isSome_iff_exists] at h
        obtain ⟨⟨hle, addr, haddr⟩, rfl, rfl⟩ := h
        have hzero : 0 ∉ a := fun hzero =>
          hread ⟨a, d, rfl, ha, hane, hdne, hd, .inr ⟨hzero, ⟨addr, haddr⟩, hle⟩⟩
        rw [cString_eq_self hzero] at haddr
        exact ⟨value d, rfl, d, rfl, ⟨addr, haddr⟩, hdne, hd, rfl, hle⟩

/-- `IsValidCIDR` gives the answer. -/
theorem Exact.isValidCIDR_eq {cidr : Text} (hexact : Exact cidr (parseCIDR cidr [] 0)) :
    ∃ ok, isValidCIDR cidr = some ok ∧ (ok = true ↔ ∃ ip n, IsCIDR cidr ip n) := by
  obtain ⟨parsed, hparsed⟩ := Option.ne_none_iff_exists'.1 hexact.returns
  refine ⟨parsed.ok, by rw [isValidCIDR, hparsed, Option.map_some], ?_⟩
  constructor
  · intro hok
    obtain ⟨ok, ip, p⟩ := parsed
    dsimp only at hok
    subst hok
    obtain ⟨n, -, hcidr⟩ := hexact.only ip p hparsed
    exact ⟨ip, n, hcidr⟩
  · rintro ⟨ip, n, hcidr⟩
    rw [hcidr.parseCIDR_eq, Option.some.injEq] at hparsed
    rw [← hparsed]

/-- An exact answer to what is no CIDR makes the callers refuse it. -/
theorem changeIP_refuses {cidr : Text} (hexact : Exact cidr (parseCIDR cidr [] 0))
    (hno : ∀ ip n, ¬ IsCIDR cidr ip n) (is_add : Bool) (system : System) (interface_name : Text) :
    changeIP is_add system interface_name cidr =
      some ⟨.kInvalidCIDR, ofText "非法的 CIDR 格式: " ++ cidr⟩ := by
  rw [changeIP]
  cases hparsed : parseCIDR cidr [] 0 with
  | none => exact absurd hparsed hexact.returns
  | some parsed =>
    have hfalse : ¬ parsed.ok = true := by
      intro hok
      obtain ⟨ok, ip, p⟩ := parsed
      dsimp only at hok
      subst hok
      obtain ⟨n, -, hcidr⟩ := hexact.only ip p hparsed
      exact hno ip n hcidr
    rw [Option.map_some, if_pos hfalse]

/-- A request for an accepted address is never refused as no CIDR. -/
theorem readReply_code (system : System) (interface_name ip : Text) (p : Int) (is_add : Bool)
    (reply : Reply) :
    (readReply system interface_name ip p is_add reply).code ≠ .kInvalidCIDR := by
  cases reply with
  | other => exact IPErrorCode.noConfusion
  | error error =>
    rw [readReply]
    split
    · exact IPErrorCode.noConfusion
    · dsimp only
      split
      · exact IPErrorCode.noConfusion
      · split
        · exact IPErrorCode.noConfusion
        · split
          · exact IPErrorCode.noConfusion
          · exact IPErrorCode.noConfusion

/-- With an address the result is not that the CIDR is invalid. -/
theorem modifyIP_code {ip : Text} {addr : InAddr} (hip : inet_pton (cString ip) = some addr)
    (system : System) (interface_name : Text) (p : Int) (is_add : Bool) :
    (modifyIP system interface_name ip p is_add).code ≠ .kInvalidCIDR := by
  rw [modifyIP, hip]
  dsimp only
  split
  · exact IPErrorCode.noConfusion
  · split
    · split
      · exact IPErrorCode.noConfusion
      · exact IPErrorCode.noConfusion
    · split
      · exact IPErrorCode.noConfusion
      · split
        · split
          · exact IPErrorCode.noConfusion
          · exact IPErrorCode.noConfusion
        · split
          · exact IPErrorCode.noConfusion
          · exact readReply_code _ _ _ _ _ _

/-- **A CIDR is not refused as none**: what then comes back is what the system makes of the
request. -/
theorem changeIP_accepts {cidr ip : Text} {n : Nat} (h : IsCIDR cidr ip n) (is_add : Bool)
    (system : System) (interface_name : Text) :
    ∃ result, changeIP is_add system interface_name cidr = some result ∧
      result.code ≠ .kInvalidCIDR := by
  have haddr : ∃ addr, inet_pton (cString ip) = some addr := by
    obtain ⟨d, -, ⟨addr, haddr⟩, -⟩ := h
    rw [cString_eq_self (address_spec haddr).2.2]
    exact ⟨addr, haddr⟩
  obtain ⟨addr, haddr⟩ := haddr
  rw [changeIP, h.parseCIDR_eq, Option.map_some]
  dsimp only
  rw [if_neg (not_not_intro rfl)]
  split
  · exact ⟨_, rfl, IPErrorCode.noConfusion⟩
  · exact ⟨_, rfl, modifyIP_code haddr _ _ _ _⟩

/-- A text is validated: the answer of `ParseCIDR` to it is exact, whatever its two references hold
before, and `AddIP` and `DeleteIP` refuse it where it is no CIDR. -/
def Validated (cidr : Text) : Prop :=
  (∀ ip p, Exact cidr (parseCIDR cidr ip p)) ∧
  ((∀ ip n, ¬ IsCIDR cidr ip n) → ∀ system interface_name,
    (∃ message, addIP system interface_name cidr = some ⟨.kInvalidCIDR, message⟩) ∧
    ∃ message, deleteIP system interface_name cidr = some ⟨.kInvalidCIDR, message⟩)

/-- **Which texts are validated**: all but those with digits that are no `int` behind their first
slash, and those with a zero byte in their address in front of which an address stands. -/
theorem validated_iff (cidr : Text) : Validated cidr ↔ ¬ Misread cidr := by
  constructor
  · intro h
    exact (parseCIDR_exact_iff cidr [] 0).1 (h.1 [] 0)
  · intro h
    have hexact : ∀ ip p, Exact cidr (parseCIDR cidr ip p) := fun ip p =>
      (parseCIDR_exact_iff cidr ip p).2 h
    refine ⟨hexact, fun hno system interface_name => ?_⟩
    have hrefuses := fun is_add =>
      changeIP_refuses (hexact [] 0) hno is_add system interface_name
    exact ⟨⟨_, hrefuses true⟩, ⟨_, hrefuses false⟩⟩

/-- Ten digits are enough for an exception, and what follows a zero byte is not looked at. -/
theorem not_all_validated :
    parseCIDR "1.2.3.4/4294967296".toUTF8.toList [] 0 = none ∧
    parseCIDR ("1.2.3.4".toUTF8.toList ++ 0 :: "junk/24".toUTF8.toList) [] 0 =
      some ⟨true, "1.2.3.4".toUTF8.toList ++ 0 :: "junk".toUTF8.toList, 24⟩ ∧
    ¬ ∀ cidr, Validated cidr := by
  have hthrows : parseCIDR "1.2.3.4/4294967296".toUTF8.toList [] 0 = none := by decide +kernel
  refine ⟨hthrows, by decide +kernel, ?_⟩
  intro h
  exact ((h _).1 [] 0).returns hthrows

end MyTools.MyIPTools

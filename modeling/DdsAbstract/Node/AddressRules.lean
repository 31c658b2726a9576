import DdsAbstract.Node.AddressGrammar

namespace DdsAbstract

def InprocSpelling (name value : StdString) : Prop :=
  value = nativeInprocPrefix ++ name ∨ value = inprocPrefix ++ name

def firstChunk (value : StdString) : StdString := value.takeWhile (· ≠ '/')

def NumericAddress (value : StdString) : Prop :=
  (∀ c ∈ value, c.isDigit = true ∨ c = '.' ∨ c = ':') ∧ ':' ∈ value

def MalformedEndpoint (value : StdString) : Prop := NumericAddress value ∧ ¬ Ipv4Endpoint value

instance (value : StdString) : Decidable (NumericAddress value) :=
  @instDecidableAnd _ _ (List.decidableBAll _ value) inferInstance

def PlainKey (value : StdString) : Prop :=
  (∃ c ∈ value.head?, c.isAlpha = true) ∧ ':' ∉ value ∧ firstChunk value ≠ inproc

section Recognised

variable {value name : StdString} {a : DdsNodeAddress}

theorem isInprocAddress_iff :
    isInprocAddress value = true ↔ ∃ name, name ≠ [] ∧ InprocSpelling name value := by
  constructor
  · intro h
    unfold isInprocAddress at h
    split at h
    · rename_i hnative
      obtain ⟨name,rfl⟩ := List.isPrefixOf_iff_prefix.mp hnative
      refine ⟨name,?_,Or.inl rfl⟩
      rintro rfl
      contradiction
    · split at h
      · rename_i hshort
        obtain ⟨name,rfl⟩ := List.isPrefixOf_iff_prefix.mp hshort
        refine ⟨name,?_,Or.inr rfl⟩
        rintro rfl
        contradiction
      · contradiction
  · rintro ⟨name,hne,rfl | rfl⟩
    · have hlen := List.length_pos_iff.mpr hne
      simpa [isInprocAddress,nativeInprocPrefix,inproc] using hlen
    · have hlen := List.length_pos_iff.mpr hne
      simpa [isInprocAddress,nativeInprocPrefix,inprocPrefix,inproc] using hlen

theorem spelling_head (h : InprocSpelling name value) : value.head? = some 'i' := by
  rcases h with rfl | rfl <;> rfl

theorem spelling_chunk (h : InprocSpelling name value) (hcolon : ':' ∉ value) :
    firstChunk value = inproc := by
  rcases h with rfl | rfl
  · refine absurd (List.mem_append_left _ ?_) hcolon
    decide
  · rfl

theorem endpoint_head (h : isIpv4Endpoint value = true) :
    ∃ c, value.head? = some c ∧ (c.isDigit = true ∨ c = '-') := by
  obtain ⟨octet,port,rfl,hoctet,_⟩ := endpoint_accepted_iff.mp h
  rcases hoctet 0 with ⟨⟨hne,hdigits⟩,_⟩ | ⟨zeros,hzero,_⟩
  · obtain ⟨c,rest,hcons⟩ := List.exists_cons_of_ne_nil hne
    have hc := hdigits c (by rw [hcons]; exact List.mem_cons_self)
    exact ⟨c,by rw [endpointText,hcons]; rfl,Or.inl hc⟩
  · exact ⟨'-',by rw [endpointText,hzero]; rfl,Or.inr rfl⟩

theorem endpoint_not_spelled (h : isIpv4Endpoint value = true) : ¬ InprocSpelling name value := by
  intro hspelled
  obtain ⟨c,hc,hcase⟩ := endpoint_head h
  rw [spelling_head hspelled] at hc
  obtain rfl := Option.some.inj hc
  rcases hcase with hcase | hcase <;> contradiction

theorem parse_cases (value : StdString) : DdsNodeAddress.parse value =
    if value = [] then .error (.invalidArgument "node address is empty".toList)
    else if isInprocAddress value || isIpv4Endpoint value then .ok ⟨.zeroMq,value⟩
    else if inproc.isPrefixOf value || (value.head?.any Char.isDigit && (find value ':').isSome) then
      .error (.invalidArgument ("invalid ZeroMQ node address: ".toList ++ value))
    else .ok ⟨.zenoh,value⟩ := by
  cases value <;> rfl

theorem parse_zeroMq (h : DdsNodeAddress.parse value = .ok a) (ha : a.transport = .zeroMq) :
    a = ⟨.zeroMq,value⟩ ∧
      ((∃ name, name ≠ [] ∧ InprocSpelling name value) ∨ isIpv4Endpoint value = true) := by
  rw [parse_cases] at h
  split at h
  · contradiction
  · split at h
    · rename_i hrecognised
      obtain rfl := Except.ok.inj h
      rw [Bool.or_eq_true,isInprocAddress_iff] at hrecognised
      exact ⟨rfl,hrecognised⟩
    · split at h
      · contradiction
      · obtain rfl := Except.ok.inj h
        contradiction

theorem parse_rejects (hinproc : isInprocAddress value = false)
    (hipv4 : isIpv4Endpoint value = false) (hdigit : ∃ c ∈ value.head?, c.isDigit = true)
    (hcolon : ':' ∈ value) :
    DdsNodeAddress.parse value =
      .error (.invalidArgument ("invalid ZeroMQ node address: ".toList ++ value)) := by
  obtain ⟨c,hc,hdigit⟩ := hdigit
  have hne : value ≠ [] := by rintro rfl; contradiction
  have hfind : (find value ':').isSome = true := by
    rw [Option.isSome_iff_ne_none]
    exact fun hnone => Split.findIdx_none.mp hnone hcolon
  have hhead : value.head?.any Char.isDigit = true := by
    rw [Option.mem_def.mp hc]
    exact hdigit
  simp [parse_cases,hne,hinproc,hipv4,hfind,hhead]

theorem parse_rejects_inproc (hinproc : isInprocAddress value = false)
    (hipv4 : isIpv4Endpoint value = false) (hstarts : inproc <+: value) :
    DdsNodeAddress.parse value =
      .error (.invalidArgument ("invalid ZeroMQ node address: ".toList ++ value)) := by
  have hne : value ≠ [] := by
    rintro rfl
    exact absurd (List.prefix_nil.mp hstarts) (by decide)
  simp [parse_cases,hne,hinproc,hipv4,List.isPrefixOf_iff_prefix.mpr hstarts]

theorem parse_keeps (hne : value ≠ []) (hinproc : isInprocAddress value = false)
    (hipv4 : isIpv4Endpoint value = false) (hstarts : ¬ inproc <+: value)
    (hplain : ':' ∈ value → ∀ c ∈ value.head?, c.isDigit = false) :
    DdsNodeAddress.parse value = .ok ⟨.zenoh,value⟩ := by
  have hother : inproc.isPrefixOf value = false := by
    rw [← Bool.not_eq_true,List.isPrefixOf_iff_prefix]
    exact hstarts
  have hnumeric : (value.head?.any Char.isDigit && (find value ':').isSome) = false := by
    by_cases hcolon : ':' ∈ value
    · have hhead : value.head?.any Char.isDigit = false := by
        cases hc : value.head? with
        | none => rfl
        | some c => exact hplain hcolon c hc
      rw [hhead,Bool.false_and]
    · have hfind : find value ':' = none := Split.findIdx_none.mpr hcolon
      rw [hfind,Option.isSome_none,Bool.and_false]
  simp [parse_cases,hne,hinproc,hipv4,hother,hnumeric]

theorem numeric_unsigned (h : NumericAddress value) : '-' ∉ value := by
  intro hmem
  rcases h.1 '-' hmem with h | h | h <;> contradiction

theorem numeric_not_inproc (h : NumericAddress value) : ¬ inproc <+: value := by
  rintro ⟨rest,rfl⟩
  rcases h.1 'i' (List.mem_append_left _ (by decide)) with h | h | h <;> contradiction

theorem spelling_inproc (h : InprocSpelling name value) : inproc <+: value := by
  rcases h with rfl | rfl
  · exact ⟨[':','/','/'] ++ name,rfl⟩
  · exact ⟨['/'] ++ name,rfl⟩

theorem not_isInprocAddress (h : ∀ name, ¬ InprocSpelling name value) :
    isInprocAddress value = false := by
  rw [← Bool.not_eq_true,isInprocAddress_iff]
  rintro ⟨name,_,hspelled⟩
  exact h name hspelled

theorem alpha_not_digit {c : Char} (h : c.isAlpha = true) : c.isDigit = false := by
  rw [← Bool.not_eq_true,Char.isDigit_iff_toNat]
  rintro ⟨_,hdigit⟩
  have letter : ('A'.val ≤ c.val ∧ c.val ≤ 'Z'.val) ∨ 'a'.val ≤ c.val ∧ c.val ≤ 'z'.val := by
    rcases (Bool.or_eq_true _ _).mp h with h | h
    · exact .inl (of_decide_eq_true h)
    · obtain ⟨low,high⟩ := (Bool.and_eq_true _ _).mp h
      exact .inr ⟨of_decide_eq_true low,of_decide_eq_true high⟩
  have above : 'A'.toNat ≤ c.toNat := by
    rcases letter with ⟨low,_⟩ | ⟨low,_⟩
    · exact UInt32.le_iff_toNat_le.mp low
    · exact Nat.le_trans (by decide) (UInt32.le_iff_toNat_le.mp low)
  exact absurd (Nat.le_trans above hdigit) (by decide)

theorem alpha_not_endpoint (h : ∃ c ∈ value.head?, c.isAlpha = true) :
    isIpv4Endpoint value = false := by
  rw [← Bool.not_eq_true]
  intro hipv4
  obtain ⟨c,hc,halpha⟩ := h
  obtain ⟨d,hd,hcase⟩ := endpoint_head hipv4
  rw [Option.mem_def,hd] at hc
  obtain rfl := Option.some.inj hc
  rcases hcase with hdigit | rfl
  · rw [alpha_not_digit halpha] at hdigit
    cases hdigit
  · contradiction

theorem malformed_rejected_iff (h : MalformedEndpoint value) :
    (∃ what, DdsNodeAddress.parse value = .error (.invalidArgument what)) ↔
      ∃ c ∈ value.head?, c.isDigit = true := by
  obtain ⟨hnumeric,hmalformed⟩ := h
  have hipv4 : isIpv4Endpoint value = false := by
    rw [← Bool.not_eq_true,isIpv4Endpoint_unsigned (numeric_unsigned hnumeric)]
    exact hmalformed
  have hinproc : isInprocAddress value = false :=
    not_isInprocAddress fun name hs => numeric_not_inproc hnumeric (spelling_inproc hs)
  constructor
  · rintro ⟨what,hwhat⟩
    by_contra hdigit
    have hkeeps := parse_keeps (List.ne_nil_of_mem hnumeric.2) hinproc hipv4
      (numeric_not_inproc hnumeric)
      (fun _ c hc => Bool.eq_false_iff.mpr fun hd => hdigit ⟨c,hc,hd⟩)
    rw [hkeeps] at hwhat
    contradiction
  · exact fun hdigit => ⟨_,parse_rejects hinproc hipv4 hdigit hnumeric.2⟩

theorem plainKey_kept_iff (h : PlainKey value) :
    DdsNodeAddress.parse value = .ok ⟨.zenoh,value⟩ ↔ ¬ inproc <+: value := by
  obtain ⟨halpha,hcolon,hchunk⟩ := h
  have hipv4 := alpha_not_endpoint halpha
  have hinproc : isInprocAddress value = false :=
    not_isInprocAddress fun name hs => hchunk (spelling_chunk hs hcolon)
  have hne : value ≠ [] := by
    rintro rfl
    obtain ⟨c,hc,_⟩ := halpha
    contradiction
  constructor
  · intro hkept hstarts
    rw [parse_rejects_inproc hinproc hipv4 hstarts] at hkept
    contradiction
  · intro hstarts
    exact parse_keeps hne hinproc hipv4 hstarts (fun h => absurd h hcolon)

theorem numeric_endpoint_head (h : Ipv4Endpoint value) : ∃ c ∈ value.head?, c.isDigit = true := by
  obtain ⟨c,hc,hcase⟩ := endpoint_head (isIpv4Endpoint_cases.mpr (Or.inl h))
  refine ⟨c,hc,hcase.resolve_right ?_⟩
  rintro rfl
  exact endpoint_unsigned h (List.mem_of_mem_head? hc)

end Recognised

theorem parse_exact_iff (value : StdString) :
    ((MalformedEndpoint value → ∃ what,
        DdsNodeAddress.parse value = .error (.invalidArgument what)) ∧
      (PlainKey value → DdsNodeAddress.parse value = .ok ⟨.zenoh,value⟩)) ↔
    (NumericAddress value → ∃ c ∈ value.head?, c.isDigit = true) ∧
      (':' ∉ value → inproc <+: value → firstChunk value = inproc) := by
  constructor
  · rintro ⟨hrejects,hkeeps⟩
    constructor
    · intro hnumeric
      by_cases hip : Ipv4Endpoint value
      · exact numeric_endpoint_head hip
      · exact (malformed_rejected_iff ⟨hnumeric,hip⟩).mp (hrejects ⟨hnumeric,hip⟩)
    · intro hcolon hstarts
      by_contra hchunk
      have halpha : ∃ c ∈ value.head?, c.isAlpha = true := by
        obtain ⟨rest,rfl⟩ := hstarts
        exact ⟨'i',rfl,rfl⟩
      have hkey : PlainKey value := ⟨halpha,hcolon,hchunk⟩
      exact (plainKey_kept_iff hkey).mp (hkeeps hkey) hstarts
  · rintro ⟨hdigit,hchunk⟩
    constructor
    · intro hmalformed
      exact (malformed_rejected_iff hmalformed).mpr (hdigit hmalformed.1)
    · intro hkey
      refine (plainKey_kept_iff hkey).mpr ?_
      exact fun hstarts => hkey.2.2 (hchunk hkey.2.1 hstarts)

theorem parse_degrades :
    (MalformedEndpoint ":80".toList ∧
      DdsNodeAddress.parse ":80".toList = .ok ⟨.zenoh,":80".toList⟩) ∧
    PlainKey "inprocess/key".toList ∧
      DdsNodeAddress.parse "inprocess/key".toList =
        .error (.invalidArgument "invalid ZeroMQ node address: inprocess/key".toList) := by
  refine ⟨⟨⟨by decide,?_⟩,by decide⟩,⟨⟨'i',rfl,rfl⟩,by decide,by decide⟩,by decide⟩
  intro hip
  obtain ⟨c,hc,hdigit⟩ := numeric_endpoint_head hip
  obtain rfl := Option.some.inj hc
  contradiction

section Endpoints

variable {v w name : StdString} {a : DdsNodeAddress}

theorem spelled_endpoint (h : InprocSpelling name v) :
    zeroMqEndpoint ⟨.zeroMq,v⟩ = nativeInprocPrefix ++ name := by
  rcases h with rfl | rfl <;> rfl

theorem plain_endpoint (h : ∀ name, ¬ InprocSpelling name v) :
    zeroMqEndpoint ⟨.zeroMq,v⟩ = ['t','c','p',':','/','/'] ++ v := by
  have hnative : nativeInprocPrefix.isPrefixOf v = false := by
    rw [← Bool.not_eq_true,List.isPrefixOf_iff_prefix]
    rintro ⟨name,rfl⟩
    exact h name (Or.inl rfl)
  have hshort : inprocPrefix.isPrefixOf v = false := by
    rw [← Bool.not_eq_true,List.isPrefixOf_iff_prefix]
    rintro ⟨name,rfl⟩
    exact h name (Or.inr rfl)
  simp only [zeroMqEndpoint,hnative,hshort,Bool.false_eq_true,if_false]

theorem spelling_unique {other : StdString} (h : InprocSpelling name v)
    (ho : InprocSpelling other v) : name = other := by
  have hends := (spelled_endpoint h).symm.trans (spelled_endpoint ho)
  exact List.append_cancel_left hends

theorem endpoint_injective (h : zeroMqEndpoint ⟨.zeroMq,v⟩ = zeroMqEndpoint ⟨.zeroMq,w⟩) :
    v = w ∨ ∃ name, InprocSpelling name v ∧ InprocSpelling name w := by
  by_cases hv : ∃ name, InprocSpelling name v
  · obtain ⟨name,hv⟩ := hv
    rw [spelled_endpoint hv] at h
    by_cases hw : ∃ name, InprocSpelling name w
    · obtain ⟨other,hw⟩ := hw
      rw [spelled_endpoint hw] at h
      obtain rfl := List.append_cancel_left h
      exact Or.inr ⟨name,hv,hw⟩
    · rw [plain_endpoint (not_exists.mp hw)] at h
      exact absurd (List.cons.inj h).1 (by decide)
  · rw [plain_endpoint (not_exists.mp hv)] at h
    by_cases hw : ∃ name, InprocSpelling name w
    · obtain ⟨other,hw⟩ := hw
      rw [spelled_endpoint hw] at h
      exact absurd (List.cons.inj h).1 (by decide)
    · rw [plain_endpoint (not_exists.mp hw)] at h
      exact Or.inl (List.append_cancel_left h)

end Endpoints

theorem endpoints_agree {v w : StdString} {a b : DdsNodeAddress}
    (hv : DdsNodeAddress.parse v = .ok a) (hw : DdsNodeAddress.parse w = .ok b)
    (ha : a.transport = .zeroMq) (hb : b.transport = .zeroMq) :
    (∀ name, InprocSpelling name v → name ≠ [] ∧ zeroMqEndpoint a = nativeInprocPrefix ++ name) ∧
    ((∀ name, ¬ InprocSpelling name v) →
      zeroMqEndpoint a = ['t','c','p',':','/','/'] ++ v ∧ isIpv4Endpoint v = true) ∧
    (zeroMqEndpoint a = zeroMqEndpoint b ↔
      v = w ∨ ∃ name, InprocSpelling name v ∧ InprocSpelling name w) := by
  obtain ⟨rfl,hrecognised⟩ := parse_zeroMq hv ha
  obtain ⟨rfl,_⟩ := parse_zeroMq hw hb
  refine ⟨?_,?_,endpoint_injective,?_⟩
  · intro name hspelled
    refine ⟨?_,spelled_endpoint hspelled⟩
    rcases hrecognised with ⟨other,hne,hother⟩ | hipv4
    · rwa [spelling_unique hspelled hother]
    · exact absurd hspelled (endpoint_not_spelled hipv4)
  · intro hplain
    refine ⟨plain_endpoint hplain,hrecognised.resolve_left ?_⟩
    rintro ⟨name,_,hspelled⟩
    exact hplain name hspelled
  · rintro (rfl | ⟨name,hspelled,hother⟩)
    · rfl
    · rw [spelled_endpoint hspelled,spelled_endpoint hother]

theorem endpoints_agree_events :
    zeroMqEndpoint ⟨.zeroMq,"inproc://events".toList⟩ =
      zeroMqEndpoint ⟨.zeroMq,"inproc/events".toList⟩ :=
  (endpoints_agree (v := "inproc://events".toList) (w := "inproc/events".toList)
    (by decide) (by decide) rfl rfl).2.2.mpr
      (Or.inr ⟨"events".toList,Or.inl rfl,Or.inr rfl⟩)

end DdsAbstract

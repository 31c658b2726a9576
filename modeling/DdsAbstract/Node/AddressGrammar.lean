import DdsAbstract.Lib.Split
import DdsAbstract.Node.Address
import Mathlib.Data.Fin.VecNotation
import Mathlib.Data.List.Induction
import Mathlib.Data.List.TakeWhile

namespace DdsAbstract

def Digits (text : StdString) : Prop := text ≠ [] ∧ ∀ c ∈ text, c.isDigit = true

def numeral (text : StdString) : Nat :=
  Nat.ofDigits 10 (text.reverse.map (fun c => c.toNat - '0'.toNat))

def Octet (text : StdString) : Prop := Digits text ∧ numeral text ≤ 255

def Port (text : StdString) : Prop :=
  Digits text ∧ 1 ≤ numeral text ∧ numeral text ≤ 65535

def SignedZero (text : StdString) : Prop :=
  ∃ zeros, text = '-' :: zeros ∧ zeros ≠ [] ∧ ∀ c ∈ zeros, c = '0'

instance (text : StdString) : Decidable (Digits text) :=
  @instDecidableAnd _ _ inferInstance (List.decidableBAll _ text)

instance (text : StdString) : Decidable (Octet text) :=
  inferInstanceAs (Decidable (_ ∧ _))

instance (text : StdString) : Decidable (Port text) :=
  inferInstanceAs (Decidable (_ ∧ _ ∧ _))

def endpointText (octet : Fin 4 → StdString) (port : StdString) : StdString :=
  octet 0 ++ '.' :: (octet 1 ++ '.' :: (octet 2 ++ '.' :: (octet 3 ++ ':' :: port)))

def Ipv4Endpoint (address : StdString) : Prop :=
  ∃ octet port, address = endpointText octet port ∧ (∀ i, Octet (octet i)) ∧ Port port

def SignedZeroEndpoint (address : StdString) : Prop :=
  ∃ octet port, address = endpointText octet port ∧
    (∀ i, Octet (octet i) ∨ SignedZero (octet i)) ∧ (∃ i, SignedZero (octet i)) ∧ Port port

section Numerals

variable {text : StdString}

theorem digits_takeWhile (h : Digits text) : text.takeWhile Char.isDigit = text :=
  List.takeWhile_eq_self_iff.mpr h.2

theorem digits_of_scan (hd : text.takeWhile Char.isDigit ≠ [])
    (hr : text.dropWhile Char.isDigit = []) : Digits text := by
  have hall : ∀ c ∈ text, c.isDigit = true := List.dropWhile_eq_nil_iff.mp hr
  rw [List.takeWhile_eq_self_iff.mpr hall] at hd
  exact ⟨hd,hall⟩

theorem digits_absent (h : Digits text) {c : Char} (hc : c.isDigit = false) : c ∉ text := by
  intro hmem
  rw [h.2 c hmem] at hc
  contradiction

theorem numeral_append (text : StdString) (c : Char) :
    numeral (text ++ [c]) = 10 * numeral text + (c.toNat - '0'.toNat) := by
  simp only [numeral,List.reverse_append,List.reverse_singleton,List.singleton_append,
    List.map_cons,Nat.ofDigits_cons]
  exact Nat.add_comm _ _

theorem decimalValue_eq (text : StdString) : decimalValue text = numeral text := by
  induction text using List.reverseRecOn with
  | nil => rfl
  | append_singleton text c ih =>
    rw [decimalValue,List.foldl_append,List.foldl_cons,List.foldl_nil,← decimalValue,ih,
      numeral_append]
    rfl

theorem numeral_zero (h : Digits text) : numeral text = 0 ↔ ∀ c ∈ text, c = '0' := by
  have hdigit : ∀ c ∈ text, c.toNat - '0'.toNat = 0 ↔ c = '0' := by
    intro c hc
    have hlow := (Char.isDigit_iff_toNat.mp (h.2 c hc)).1
    rw [← Char.toNat_inj]
    omega
  constructor
  · intro hzero c hc
    rw [← hdigit c hc]
    exact Nat.digits_zero_of_eq_zero (by decide) hzero _
      (List.mem_map_of_mem (List.mem_reverse.mpr hc))
  · intro hall
    have hmap : text.reverse.map (fun c => c.toNat - '0'.toNat) = List.replicate text.length 0 := by
      rw [List.eq_replicate_iff]
      refine ⟨by simp,?_⟩
      intro n hn
      obtain ⟨c,hc,rfl⟩ := List.mem_map.mp hn
      have hc := List.mem_reverse.mp hc
      exact (hdigit c hc).mpr (hall c hc)
    rw [numeral,hmap,Nat.ofDigits_replicate_zero]

theorem digits_head (h : Digits text) : text.head? ≠ some '-' := by
  intro hd
  exact digits_absent h (c := '-') rfl (List.mem_of_mem_head? hd)

end Numerals

section Recogniser

variable {text : StdString} {value minimum maximum : Int}

def scanned (text body : StdString) (value : Int) (sign : Int → Int) : FromCharsResult :=
  let digits := body.takeWhile Char.isDigit
  let rest := body.dropWhile Char.isDigit
  let parsed := sign (decimalValue digits)
  if digits = [] then ⟨text,.invalidArgument,value⟩
  else if -2 ^ 31 ≤ parsed ∧ parsed < 2 ^ 31 then ⟨rest,.ok,parsed⟩
  else ⟨rest,.resultOutOfRange,value⟩

theorem fromChars_minus (body : StdString) (value : Int) :
    fromChars ('-' :: body) value = scanned ('-' :: body) body value (fun n => -n) := by
  simp only [fromChars,scanned,List.head?_cons,if_true,List.tail_cons]

theorem fromChars_plain (h : text.head? ≠ some '-') :
    fromChars text value = scanned text text value id := by
  simp only [fromChars,scanned,h,if_false,id_eq]

theorem scanned_digits {body : StdString} {sign : Int → Int} (h : Digits body)
    (hrange : -2 ^ 31 ≤ sign (numeral body) ∧ sign (numeral body) < 2 ^ 31) :
    scanned text body value sign = ⟨[],.ok,sign (numeral body)⟩ := by
  have hrest : body.dropWhile Char.isDigit = [] := List.dropWhile_eq_nil_iff.mpr h.2
  simp only [scanned,digits_takeWhile h,hrest,h.1,if_false,decimalValue_eq]
  exact if_pos hrange

theorem scanned_accepts {body : StdString} {sign : Int → Int}
    (hec : (scanned text body value sign).ec = .ok)
    (hptr : (scanned text body value sign).ptr = []) :
    Digits body ∧ (scanned text body value sign).value = sign (numeral body) := by
  unfold scanned at hec hptr ⊢
  by_cases hempty : body.takeWhile Char.isDigit = []
  · simp only [hempty,if_true] at hec
    contradiction
  · by_cases hrange : -2 ^ 31 ≤ sign (decimalValue (body.takeWhile Char.isDigit)) ∧
        sign (decimalValue (body.takeWhile Char.isDigit)) < 2 ^ 31
    · simp only [hempty,hrange,if_false,and_self,if_true] at hptr ⊢
      have hd := digits_of_scan hempty hptr
      exact ⟨hd,by rw [digits_takeWhile hd,decimalValue_eq]⟩
    · simp only [hempty,hrange,if_false] at hec
      contradiction

theorem isDecimalInRange_accepts (h : isDecimalInRange text minimum maximum = true) :
    (fromChars text 0).ec = .ok ∧ (fromChars text 0).ptr = [] ∧
      minimum ≤ (fromChars text 0).value ∧ (fromChars text 0).value ≤ maximum := by
  unfold isDecimalInRange at h
  split at h
  · contradiction
  · simp only [Bool.and_eq_true,beq_iff_eq,List.isEmpty_iff,decide_eq_true_eq] at h
    obtain ⟨⟨⟨hec,hptr⟩,hmin⟩,hmax⟩ := h
    exact ⟨hec,hptr,hmin,hmax⟩

theorem isDecimalInRange_of {n : Int} (hne : text ≠ []) (h : fromChars text 0 = ⟨[],.ok,n⟩)
    (hmin : minimum ≤ n) (hmax : n ≤ maximum) :
    isDecimalInRange text minimum maximum = true := by
  have hempty : text.isEmpty = false := List.isEmpty_eq_false_iff.mpr hne
  simp only [isDecimalInRange,hempty,Bool.false_eq_true,if_false,h,List.isEmpty_nil,beq_self_eq_true,
    hmin,hmax,decide_true,Bool.and_self]

theorem isDecimalInRange_iff (hmin : 0 ≤ minimum) (hmax : maximum < 2 ^ 31) :
    isDecimalInRange text minimum maximum = true ↔
      (Digits text ∧ minimum ≤ numeral text ∧ (numeral text : Int) ≤ maximum) ∨
        (minimum = 0 ∧ 0 ≤ maximum ∧ SignedZero text) := by
  constructor
  · intro h
    obtain ⟨hec,hptr,hlow,hhigh⟩ := isDecimalInRange_accepts h
    by_cases hneg : text.head? = some '-'
    · obtain ⟨body,rfl⟩ := List.head?_eq_some_iff.mp hneg
      rw [fromChars_minus] at hec hptr hlow hhigh
      obtain ⟨hdigits,hvalue⟩ := scanned_accepts hec hptr
      rw [hvalue] at hlow hhigh
      have hzero : numeral body = 0 := by omega
      right
      exact ⟨by omega,by omega,body,rfl,hdigits.1,(numeral_zero hdigits).mp hzero⟩
    · rw [fromChars_plain hneg] at hec hptr hlow hhigh
      obtain ⟨hdigits,hvalue⟩ := scanned_accepts hec hptr
      rw [hvalue] at hlow hhigh
      exact Or.inl ⟨hdigits,hlow,hhigh⟩
  · rintro (⟨hdigits,hlow,hhigh⟩ | ⟨rfl,hhigh,zeros,rfl,hne,hzeros⟩)
    · have hread : fromChars text 0 = _ := fromChars_plain (digits_head hdigits)
      rw [scanned_digits hdigits ⟨by rw [id_eq]; omega,by rw [id_eq]; omega⟩] at hread
      exact isDecimalInRange_of hdigits.1 hread hlow hhigh
    · have hdigits : Digits zeros := ⟨hne,fun c hc => by rw [hzeros c hc]; rfl⟩
      have hzero := (numeral_zero hdigits).mpr hzeros
      have hread := fromChars_minus zeros 0
      rw [scanned_digits hdigits (by rw [hzero]; decide),hzero] at hread
      exact isDecimalInRange_of (List.cons_ne_nil _ _) hread (Int.le_refl 0) hhigh

theorem octet_iff : isDecimalInRange text 0 255 = true ↔ Octet text ∨ SignedZero text := by
  rw [isDecimalInRange_iff (Int.le_refl 0) (by decide)]
  constructor
  · rintro (⟨hdigits,_,hmax⟩ | ⟨_,_,hzero⟩)
    · exact Or.inl ⟨hdigits,by omega⟩
    · exact Or.inr hzero
  · rintro (⟨hdigits,hmax⟩ | hzero)
    · exact Or.inl ⟨hdigits,by omega,by omega⟩
    · exact Or.inr ⟨rfl,by decide,hzero⟩

theorem port_iff : isDecimalInRange text 1 65535 = true ↔ Port text := by
  rw [isDecimalInRange_iff (by decide) (by decide)]
  constructor
  · rintro (⟨hdigits,hmin,hmax⟩ | ⟨hone,_⟩)
    · exact ⟨hdigits,by omega,by omega⟩
    · contradiction
  · rintro ⟨hdigits,hmin,hmax⟩
    exact Or.inl ⟨hdigits,by omega,by omega⟩

theorem rfind_append {a b : StdString} {c : Char} (h : c ∉ b) :
    rfind (a ++ c :: b) c = some a.length := by
  rw [rfind,find,Split.findIdx_reverse_append h,Option.map_some,List.length_append,
    List.length_cons]
  congr 1
  omega

theorem eq_of_rfind {c : Char} {position : Nat} (h : rfind text c = some position) :
    ∃ a b, text = a ++ c :: b ∧ c ∉ b ∧ a.length = position := by
  obtain ⟨i,hi,hposition⟩ := Option.map_eq_some_iff.mp h
  obtain ⟨a,b,rfl,hb,hlen⟩ := Split.eq_of_findIdx_reverse hi
  refine ⟨a,b,rfl,hb,?_⟩
  rw [List.length_append,List.length_cons] at hposition
  omega

theorem inRange_absent {c : Char} (hc : c.isDigit = false) (hsign : c ≠ '-')
    (h : Octet text ∨ SignedZero text) : c ∉ text := by
  rcases h with h | ⟨zeros,rfl,_,hzeros⟩
  · exact digits_absent h.1 hc
  · intro hmem
    rcases List.mem_cons.mp hmem with rfl | hmem
    · exact hsign rfl
    · rw [hzeros c hmem] at hc
      contradiction

theorem octets_one : isIpv4Octets 1 text = true ↔ Octet text ∨ SignedZero text := by
  rw [← octet_iff]
  constructor
  · intro h
    rw [isIpv4Octets] at h
    cases hdot : find text '.' with
    | none =>
      by_cases hrange : isDecimalInRange text 0 255 = true
      · exact hrange
      · simp [hdot,substrTo,hrange] at h
    | some position =>
      rw [hdot] at h
      split at h <;> contradiction
  · intro h
    have hdot : find text '.' = none :=
      Split.findIdx_none.mpr (inRange_absent rfl (by decide) (octet_iff.mp h))
    simp [isIpv4Octets,hdot,substrTo,h]

theorem octets_succ {n : Nat} : isIpv4Octets (n + 2) text = true ↔
    ∃ octet rest, text = octet ++ '.' :: rest ∧ (Octet octet ∨ SignedZero octet) ∧
      isIpv4Octets (n + 1) rest = true := by
  constructor
  · intro h
    cases hdot : find text '.' with
    | none =>
      rw [isIpv4Octets,hdot] at h
      split at h <;> contradiction
    | some position =>
      obtain ⟨hsplit,_⟩ := Split.eq_of_findIdx hdot
      rw [isIpv4Octets,hdot] at h
      by_cases hrange : isDecimalInRange (text.take position) 0 255 = true
      · refine ⟨text.take position,text.drop (position + 1),hsplit,octet_iff.mp hrange,?_⟩
        simpa [substrTo,hrange] using h
      · simp [substrTo,hrange] at h
  · rintro ⟨octet,rest,rfl,hoctet,hrest⟩
    have hdot : find (octet ++ '.' :: rest) '.' = some octet.length :=
      Split.findIdx_append (inRange_absent rfl (by decide) hoctet)
    rw [isIpv4Octets,hdot]
    simp [substrTo,octet_iff.mpr hoctet,hrest]

theorem endpoint_split : isIpv4Endpoint text = true ↔
    ∃ ipv4 port, text = ipv4 ++ ':' :: port ∧ isIpv4Octets 4 ipv4 = true ∧ Port port := by
  constructor
  · intro h
    cases hcolon : rfind text ':' with
    | none => simp [isIpv4Endpoint,hcolon] at h
    | some colon =>
      obtain ⟨ipv4,port,rfl,_,rfl⟩ := eq_of_rfind hcolon
      by_cases hport : isDecimalInRange port 1 65535 = true
      · refine ⟨ipv4,port,rfl,?_,port_iff.mp hport⟩
        simpa [isIpv4Endpoint,hcolon,hport] using h
      · simp [isIpv4Endpoint,hcolon,hport] at h
  · rintro ⟨ipv4,port,rfl,hipv4,hport⟩
    have hcolon := rfind_append (a := ipv4) (digits_absent hport.1 (c := ':') rfl)
    simp [isIpv4Endpoint,hcolon,port_iff.mpr hport,hipv4]

theorem endpoint_accepted_iff : isIpv4Endpoint text = true ↔
    ∃ octet port, text = endpointText octet port ∧
      (∀ i, Octet (octet i) ∨ SignedZero (octet i)) ∧ Port port := by
  rw [endpoint_split]
  constructor
  · rintro ⟨ipv4,port,rfl,hipv4,hport⟩
    obtain ⟨first,_,rfl,hfirst,hipv4⟩ := octets_succ.mp hipv4
    obtain ⟨second,_,rfl,hsecond,hipv4⟩ := octets_succ.mp hipv4
    obtain ⟨third,fourth,rfl,hthird,hfourth⟩ := octets_succ.mp hipv4
    have hfourth := octets_one.mp hfourth
    refine ⟨![first,second,third,fourth],port,?_,?_,hport⟩
    · simp [endpointText]
    · simp [Fin.forall_fin_succ,hfirst,hsecond,hthird,hfourth]
  · rintro ⟨octet,port,rfl,hoctet,hport⟩
    refine ⟨octet 0 ++ '.' :: (octet 1 ++ '.' :: (octet 2 ++ '.' :: octet 3)),port,?_,?_,hport⟩
    · simp [endpointText]
    · refine octets_succ.mpr ⟨_,_,rfl,hoctet 0,?_⟩
      refine octets_succ.mpr ⟨_,_,rfl,hoctet 1,?_⟩
      exact octets_succ.mpr ⟨_,_,rfl,hoctet 2,octets_one.mpr (hoctet 3)⟩

theorem mem_endpointText {octet : Fin 4 → StdString} {port : StdString} {c : Char} :
    c ∈ endpointText octet port ↔ (∃ i, c ∈ octet i) ∨ c ∈ port ∨ c = '.' ∨ c = ':' := by
  simp only [endpointText,List.mem_append,List.mem_cons,Fin.exists_fin_succ,
    Fin.succ_zero_eq_one,Fin.succ_one_eq_two,Fin.reduceSucc,IsEmpty.exists_iff,or_false]
  tauto

theorem endpoint_unsigned (h : Ipv4Endpoint text) : '-' ∉ text := by
  obtain ⟨octet,port,rfl,hoctet,hport⟩ := h
  rw [mem_endpointText]
  rintro (⟨i,hi⟩ | hi | hi | hi)
  · exact digits_absent (hoctet i).1 rfl hi
  · exact digits_absent hport.1 rfl hi
  all_goals contradiction

theorem signedZeroEndpoint_signed (h : SignedZeroEndpoint text) : '-' ∈ text := by
  obtain ⟨octet,port,rfl,_,⟨i,zeros,hi,_⟩,_⟩ := h
  rw [mem_endpointText]
  exact Or.inl ⟨i,by rw [hi]; exact List.mem_cons_self⟩

theorem isIpv4Endpoint_cases :
    isIpv4Endpoint text = true ↔ Ipv4Endpoint text ∨ SignedZeroEndpoint text := by
  rw [endpoint_accepted_iff]
  constructor
  · rintro ⟨octet,port,rfl,hoctet,hport⟩
    by_cases hsigned : ∃ i, SignedZero (octet i)
    · exact Or.inr ⟨octet,port,rfl,hoctet,hsigned,hport⟩
    · refine Or.inl ⟨octet,port,rfl,?_,hport⟩
      exact fun i => (hoctet i).resolve_right fun hi => hsigned ⟨i,hi⟩
  · rintro (⟨octet,port,rfl,hoctet,hport⟩ | ⟨octet,port,rfl,hoctet,_,hport⟩)
    · exact ⟨octet,port,rfl,fun i => Or.inl (hoctet i),hport⟩
    · exact ⟨octet,port,rfl,hoctet,hport⟩

theorem isIpv4Endpoint_unsigned (h : '-' ∉ text) :
    isIpv4Endpoint text = true ↔ Ipv4Endpoint text := by
  rw [isIpv4Endpoint_cases]
  exact or_iff_left fun hs => h (signedZeroEndpoint_signed hs)

end Recogniser

theorem endpoint_exact_iff (address : StdString) :
    (isIpv4Endpoint address = true ↔ Ipv4Endpoint address) ↔ ¬ SignedZeroEndpoint address := by
  rw [isIpv4Endpoint_cases]
  constructor
  · intro hexact hsigned
    exact endpoint_unsigned (hexact.mp (Or.inr hsigned)) (signedZeroEndpoint_signed hsigned)
  · intro hplain
    exact or_iff_left hplain

theorem endpoint_minus_zero :
    isIpv4Endpoint "-0.0.0.0:80".toList = true ∧ ¬ Ipv4Endpoint "-0.0.0.0:80".toList :=
  ⟨by decide,fun h => endpoint_unsigned h (by decide)⟩

example : Ipv4Endpoint "192.168.000.10:08080".toList :=
  ⟨![['1','9','2'],['1','6','8'],['0','0','0'],['1','0']],['0','8','0','8','0'],
    rfl,by decide,by decide⟩

end DdsAbstract

import Formulae.Ty.Basic

/-!
# Equal types

Types that are the same in every respect are equal (`Ty.same_iff`).
-/

namespace Formulae.Ty

mutual

theorem agree_refl (finality : Bool) : ∀ a : Ty, agree finality a a
  | .basic _ _ | .null _ | .enumeration _ _ => by simp [agree]
  | .array element _ _ | .typeLiteral element _ => by simp [agree, agree_refl finality element]
  | .function params variadic ret _ _ => by
      simp [agree, agreeAll_refl finality params, agreeOption_refl finality variadic,
        agree_refl finality ret]

theorem agreeAll_refl (finality : Bool) : ∀ as : List Ty, agreeAll finality as as
  | [] => rfl
  | a :: as => by simp [agreeAll, agree_refl finality a, agreeAll_refl finality as]

theorem agreeOption_refl (finality : Bool) : ∀ a : Option Ty, agreeOption finality a a
  | none => rfl
  | some a => by simp [agreeOption, agree_refl finality a]

end

mutual

theorem agree_comm (finality : Bool) : ∀ a b : Ty, agree finality a b = agree finality b a
  | .basic _ _, b | .null _, b | .enumeration _ _, b => by
      cases b <;> simp [agree, eq_comm]
  | .array element _ _, b => by
      cases b with
      | array other _ _ => simp only [agree, agree_comm finality element other, eq_comm]
      | _ => rfl
  | .typeLiteral inner _, b => by
      cases b with
      | typeLiteral other _ => simp only [agree, agree_comm finality inner other, eq_comm]
      | _ => rfl
  | .function params variadic ret _ _, b => by
      cases b with
      | function params' variadic' ret' _ _ =>
          simp only [agree, agreeAll_comm finality params params',
            agreeOption_comm finality variadic variadic', agree_comm finality ret ret', eq_comm]
      | _ => rfl

theorem agreeAll_comm (finality : Bool) : ∀ as bs : List Ty,
    agreeAll finality as bs = agreeAll finality bs as
  | [], bs => by cases bs <;> rfl
  | a :: as, bs => by
      cases bs with
      | nil => rfl
      | cons b bs => rw [agreeAll, agreeAll, agree_comm finality a b, agreeAll_comm finality as bs]

theorem agreeOption_comm (finality : Bool) : ∀ a b : Option Ty,
    agreeOption finality a b = agreeOption finality b a
  | none, b => by cases b <;> rfl
  | some a, b => by
      cases b with
      | none => rfl
      | some b => rw [agreeOption, agreeOption, agree_comm finality a b]

end

mutual

theorem agree_trans (finality : Bool) : ∀ {a b c : Ty},
    agree finality a b → agree finality b c → agree finality a c
  | .basic _ _, b, c, ab, bc | .null _, b, c, ab, bc
  | .enumeration _ _, b, c, ab, bc => by
      cases b <;> cases c <;> first | cases ab | cases bc | skip
      all_goals simp only [agree, Bool.and_eq_true, Bool.or_eq_true] at ab bc ⊢
      all_goals grind
  | .array a _ _, b, c, ab, bc => by
      cases b <;> cases c <;> first | cases ab | cases bc | skip
      simp only [agree, Bool.and_eq_true] at ab bc ⊢
      have element := agree_trans finality ab.1.2 bc.1.2
      grind
  | .typeLiteral a _, b, c, ab, bc => by
      cases b <;> cases c <;> first | cases ab | cases bc | skip
      simp only [agree, Bool.and_eq_true] at ab bc ⊢
      have inner := agree_trans finality ab.1 bc.1
      grind
  | .function ps v r _ _, b, c, ab, bc => by
      cases b <;> cases c <;> first | cases ab | cases bc | skip
      simp only [agree, Bool.and_eq_true] at ab bc ⊢
      have params := agreeAll_trans finality ab.1.1.1.1 bc.1.1.1.1
      have variadic := agreeOption_trans finality ab.1.1.1.2 bc.1.1.1.2
      have ret := agree_trans finality ab.1.1.2 bc.1.1.2
      grind

theorem agreeAll_trans (finality : Bool) : ∀ {as bs cs : List Ty},
    agreeAll finality as bs → agreeAll finality bs cs → agreeAll finality as cs
  | [], [], [], _, _ => rfl
  | a :: as, b :: bs, c :: cs, ab, bc => by
      rw [agreeAll, Bool.and_eq_true] at ab bc ⊢
      exact ⟨agree_trans finality ab.1 bc.1, agreeAll_trans finality ab.2 bc.2⟩

theorem agreeOption_trans (finality : Bool) : ∀ {a b c : Option Ty},
    agreeOption finality a b → agreeOption finality b c → agreeOption finality a c
  | none, none, none, _, _ => rfl
  | some _, some _, some _, ab, bc => agree_trans finality ab bc

end

mutual

theorem eq_of_agree : ∀ a b : Ty, agree true a b → a = b
  | .basic _ _, b, h | .null _, b, h | .enumeration _ _, b, h => by
      cases b <;> simp_all [agree]
  | .array element _ _, b, h => by
      cases b with
      | array other _ _ =>
          simp only [agree, Bool.and_eq_true, decide_eq_true_eq, Bool.not_true, Bool.false_or] at h
          rw [eq_of_agree element other h.1.2, h.1.1, h.2]
      | _ => cases h
  | .typeLiteral inner _, b, h => by
      cases b with
      | typeLiteral other _ =>
          simp only [agree, Bool.and_eq_true, decide_eq_true_eq, Bool.not_true, Bool.false_or] at h
          rw [eq_of_agree inner other h.1, h.2]
      | _ => cases h
  | .function params variadic ret _ _, b, h => by
      cases b with
      | function params' variadic' ret' _ _ =>
          simp only [agree, Bool.and_eq_true, decide_eq_true_eq, Bool.not_true, Bool.false_or] at h
          obtain ⟨⟨⟨⟨sameParams, sameVariadic⟩, sameRet⟩, sameResolver⟩, sameFinality⟩ := h
          rw [eq_of_agreeAll params params' sameParams,
            eq_of_agreeOption variadic variadic' sameVariadic, eq_of_agree ret ret' sameRet,
            sameResolver, sameFinality]
      | _ => cases h

theorem eq_of_agreeAll : ∀ as bs : List Ty, agreeAll true as bs → as = bs
  | [], bs, h => by cases bs <;> first | rfl | cases h
  | a :: as, bs, h => by
      cases bs with
      | nil => cases h
      | cons b bs =>
          rw [agreeAll, Bool.and_eq_true] at h
          rw [eq_of_agree a b h.1, eq_of_agreeAll as bs h.2]

theorem eq_of_agreeOption : ∀ a b : Option Ty, agreeOption true a b → a = b
  | none, b, h => by cases b <;> first | rfl | cases h
  | some a, b, h => by
      cases b with
      | none => cases h
      | some b => rw [eq_of_agree a b h]

end

theorem same_iff {a b : Ty} : a.same b ↔ a = b :=
  ⟨eq_of_agree a b, fun equal => equal ▸ agree_refl true a⟩

end Formulae.Ty

import SourceAudit.Rules.Bindings
import SourceAudit.Text.Search

namespace SourceAudit.Expr

def isLiteralPart : FormattedPart Expr → Bool
  | .literal _ => true
  | .value _ => false

def isConstant (expr : Expr) : Bool :=
  match _shape : expr.shape with
  | .formatted parts => parts.all isLiteralPart
  | .binary _ left right => isConstant left && isConstant right
  | .tuple items | .list items => items.attach.all fun ⟨item, _⟩ => isConstant item
  | .call function args =>
    if (Call.mk function args).isFormat then
      (match _method : function.shape with
        | .attribute value _ => isConstant value
        | _ => false) &&
      args.attach.all fun ⟨arg, _⟩ => isConstant arg.value
    else false
  | _ => expr.isLiteral
termination_by sizeOf expr
decreasing_by
  · exact Expr.sizeOf_child (by simp [Expr.children, _shape, Expr.Shape.children])
  · exact Expr.sizeOf_child (by simp [Expr.children, _shape, Expr.Shape.children])
  · exact Expr.sizeOf_child (by simp_all [Expr.children, Expr.Shape.children])
  · exact Expr.sizeOf_child (by simp_all [Expr.children, Expr.Shape.children])
  · exact Expr.sizeOf_receiver _shape _method
  · exact Expr.sizeOf_argument _shape ‹_›

/-- Whether an expression assembles a string: by an operator on some literal text, in a formatted
    string, or by `format`. -/
def buildsString (expr : Expr) : Bool :=
  match expr.shape with
  | .binary _ _ _ => expr.literalText != ""
  | .formatted _ => true
  | .call function args => (Call.mk function args).isFormat
  | _ => false

def leadingText (expr : Expr) : String :=
  match _shape : expr.shape with
  | .string text => text
  | .formatted parts => String.join ((parts.takeWhile isLiteralPart).map FormattedPart.literalText)
  | .binary _ left right =>
    if isConstant left then leadingText left ++ leadingText right else leadingText left
  | .call function args =>
    if (Call.mk function args).isFormat then
      match _method : function.shape with
      | .attribute value _ =>
        String.ofList ((leadingText value).toList.takeWhile (· != '\x7b'))
      | _ => ""
    else ""
  | _ => ""
termination_by sizeOf expr
decreasing_by
  · exact Expr.sizeOf_child (by simp [Expr.children, _shape, Expr.Shape.children])
  · exact Expr.sizeOf_child (by simp [Expr.children, _shape, Expr.Shape.children])
  · exact Expr.sizeOf_child (by simp [Expr.children, _shape, Expr.Shape.children])
  · exact Expr.sizeOf_receiver _shape _method

end SourceAudit.Expr

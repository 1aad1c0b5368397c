import LazyEmbed.Text.Basic

/-!
The script that a page with deferred frames ends with. It turns placeholders back into frames, once
they come into view or when they are clicked.
-/

namespace LazyEmbed.Page

def loaderSource : String :=
  "((e,h,r,k,t)=>\x7bfunction x(a)\x7b[\"click\",\"load\",\"resize\",\"scroll\",\"visibilitycha" ++
  "nge\"].forEach(b=>a(b,F,\x7bcapture:!0,passive:!0\x7d))\x7dfunction u()\x7breturn[Math.max(0" ++
  ",h.querySelector(\".p-navSticky\")?.getBoundingClientRect().bottom),e.innerHeight]\x7dfuncti" ++
  "on F()\x7be.clearTimeout(y);y=e.setTimeout(z,32)\x7dfunction A(a)\x7blet b=-1,c=h.createElem" ++
  "ent(\"iframe\"),d=JSON.parse(a.getAttribute(k+\"-iframe\"));for(;++b<d.length;)c.setAttribut" ++
  "e(d[b],d[++b]);c.loading=\"eager\";G(c,a.parentNode);a.replaceWith(c);2==c.getAttribute(k+\"" ++
  "-api\")&&(c.onload=H,a=l[B(c.src)],\"string\"===typeof a&&C(c,a))\x7dfunction H(a)\x7bconst " ++
  "b=new MessageChannel,c=a.target,d=B(c.src);b.port1.onmessage=f=>\x7bconst g=\"\"+f.data;e.se" ++
  "tTimeout(()=>\x7bC(c,l[d]||g)\x7d,c.getBoundingClientRect().height>+g.split(\" \")[0]?5E3:0)" ++
  ";try\x7b.1>Math.random()&&I(),l[d]=g\x7dcatch\x7b\x7d\x7d;c.contentWindow.postMessage(\"s9e:" ++
  "init\",\"*\",[b.port2])\x7dfunction J(a)\x7ba=a.getBoundingClientRect();const [b,c]=u();retu" ++
  "rn a.bottom>c?2:a.top<b?0:1\x7dfunction C(a,b)\x7bconst [c,d]=[...b.split(\" \"),0],f=a.styl" ++
  "e;if(f.height!==c+\"px\"||d&&f.width!==d+\"px\")\x7ba=J(a);var g=(b=0===a||1===a&&1===q)?n.s" ++
  "crollHeight-e.scrollY:0;if(1!==a||b||\"complete\"!==h.readyState)f.transition=\"none\",e.set" ++
  "Timeout(()=>\x7bf.transition=\"\"\x7d,32);f.height=c+\"px\";d&&(f.width=d+\"px\");b&&((a=n.s" ++
  "crollHeight-e.scrollY-g)&&e.scrollBy(\x7bbehavior:\"instant\",top:a\x7d),p=e.scrollY)\x7d" ++
  "\x7dfunction z()\x7bif(\"hidden\"!==h.visibilityState)\x7bq=p===e.scrollY?0:p>(p=e.scrollY)?" ++
  "1:0;var a=D;if(\"complete\"!==h.readyState)var b=u();else b=2*e.innerHeight,b=[-b/(0===q?4:2" ++
  "),b];a(b)\x7d\x7dfunction D(a)\x7bconst b=[],[c,d]=a;v.forEach(f=>\x7bvar g=f.getBoundingCli" ++
  "entRect();if(g.bottom<c||g.top>d||!g.width)g=!1;else\x7blet m=f.parentElement,E=m;for(;m;)/b" ++
  "bCodeBlock-expandContent/.test(m.className)&&(E=m),m=m.parentElement;g=g.top<=E.getBoundingC" ++
  "lientRect().bottom\x7dg?f.hasAttribute(k+\"-c2l\")?K(f):A(f):b.push(f)\x7d);v=b;v.length||x(" ++
  "e.removeEventListener)\x7dfunction K(a)\x7ba.hasAttribute(k+\"-c2l-background\")&&((a.hasAtt" ++
  "ribute(k)?a:a.parentElement.parentElement).style.background=a.getAttribute(k+\"-c2l-backgrou" ++
  "nd\"));a.onclick=b=>\x7bb.stopPropagation();A(a)\x7d\x7dfunction G(a,b)\x7ba.hasAttribute(k)" ++
  "||b.hasAttribute(\"style\")||(b.className=t+\"-inactive\",b.onclick=()=>\x7bconst c=b.getBou" ++
  "ndingClientRect(),d=a.style;d.bottom=n.clientHeight-c.bottom+\"px\";d.height=c.height+\"px\"" ++
  ";d.width=c.width+\"px\";\"rtl\"===n.dir?d.left=c.left+\"px\":d.right=n.clientWidth-c.right+" ++
  "\"px\";a.offsetHeight&&/inactive/.test(b.className)?(b.className=t+\"-active-tn\",a.removeAt" ++
  "tribute(\"style\"),w?.click(),w=b):(b.className=t+\"-inactive-tn\",w=null)\x7d,a.addEventLis" ++
  "tener(\"transitionend\",()=>\x7b/-tn/.test(b.className)&&(b.className=b.className.replace(\"" ++
  "-tn\",\"\"),a.removeAttribute(\"style\"))\x7d))\x7dfunction B(a)\x7breturn a.replace(/.*?ifr" ++
  "am(e\\/\\d+\\/\\w+)[^#]*(#[^#]+).*/,\"s9$1$2\")\x7dfunction I()\x7bif(l instanceof Storage)" ++
  "\x7bvar a=l.length||0;if(100<a)for(;0<=--a;)\x7bconst b=l.key(a)||\"\";/^s9e\\//.test(b)&&.5" ++
  ">Math.random()&&l.removeItem(b)\x7d\x7d\x7dlet w=null,n=h.documentElement,p=e.scrollY,l=\x7b" ++
  "\x7d,v=[...h.querySelectorAll(\"span[\"+k+\"-iframe]\")],q=0,y=0;try\x7bl=e.localStorage\x7d" ++
  "catch\x7b\x7dz();x(e.addEventListener);e.navigation?.addEventListener(\"navigate\",a=>\x7ba=" ++
  "a.destination;if(a.sameDocument&&(a=/#.*/.exec(a.url)))\x7br=a[0];q=p=0;a=D;if(r)\x7bvar b=h" ++
  ".querySelector(r)?.getBoundingClientRect().top??0;b=[b,b+e.innerHeight]\x7delse b=u();a(b)" ++
  "\x7d\x7d)\x7d)(window,document,location.hash,\"data-s9e-mediaembed\",\"s9e-miniplayer\")"

def loader : Text := loaderSource

def loaderElement : Text := "<script>" ++ loader ++ "</script>"

end LazyEmbed.Page
